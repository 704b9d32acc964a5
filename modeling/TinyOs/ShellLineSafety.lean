import Mathlib.Data.List.Basic
import TinyOs.Library.Terminated
import TinyOs.ShellLine

/-! How `process_line` splits a command line, and which lines it rejects. -/
namespace TinyOs.ShellLine
open Library

/-- The fragments that the arrays hold, from the last `left` on. -/
def fragments (argv : List String) (f : Fragments) : Nat → Option (List (List String))
  | 0 => some []
  | left + 1 => (words argv f (f.frag - (left + 1))).bind fun first =>
    (fragments argv f left).map (first :: ·)

/-- A fragment that cannot be executed. -/
def Faulty (part : List String) : Prop :=
  part = [] ∨ ∃ word rest, part = word :: rest ∧ ∀ command ∈ commands, command.cmdname ≠ word

/-- A line is split without leaving the arrays, and exactly; it is rejected for a
faulty fragment, and then nothing is done with the file ids. -/
def Splits (argv : List String) : Prop :=
  ∃ f parts checked, split argv = some f ∧ fragments argv f f.frag = some parts ∧
    ["|"].intercalate parts = argv ∧ (∀ part ∈ parts, "|" ∉ part) ∧
    check argv f = some checked ∧
    ((∃ printed, checked = .error printed) ↔ ∃ part ∈ parts, Faulty part) ∧
    ∀ printed, checked = .error printed → ∀ sh garbage nulls outcomes,
      processLine sh argv garbage nulls outcomes = some (sh, .error printed)

section
variable {α : Type} {table table' : Table α} {i j : Nat} {value : α}

theorem Table.store_inside (inside : i < table.length) :
    table.store i value = some (table.set i (some value)) := if_pos inside

theorem Table.load_set (inside : i < table.length) :
    Table.load (table.set i (some value)) i = some value := by
  simp [Table.load, inside]

theorem Table.load_set_ne (other : i ≠ j) :
    Table.load (table.set i (some value)) j = table.load j := by
  simp [Table.load, other]

end

section
variable {argv done rest : List String} {word : String} {f f' : Fragments}
  {closed parts : List (List String)} {last part : List String} {j : Nat}

/-- Where a fragment begins in a line. -/
def start (parts : List (List String)) (j : Nat) : Nat := (terminated "|" (parts.take j)).length

/-- The arrays hold these fragments of a line of this many words. -/
structure Describes (f : Fragments) (size : Nat) (parts : List (List String)) : Prop where
  Vargc : f.Vargc.length = size
  Vargv : f.Vargv.length = size
  counts : ∀ j part, parts[j]? = some part → f.Vargc.load j = some part.length
  firsts : ∀ j part, parts[j]? = some part → part ≠ [] → f.Vargv.load j = some (start parts j)

/-- The splitting loop after the words `done`. -/
structure Splitting (argv done : List String) (f : Fragments) (closed : List (List String))
    (last : List String) : Prop where
  whole : done = terminated "|" closed ++ last
  free : ∀ part ∈ closed, "|" ∉ part
  last_free : "|" ∉ last
  frag : f.frag = closed.length
  describes : Describes f argv.length (closed ++ [last])

theorem Splitting.bars (splitting : Splitting argv done f closed last) :
    done.count "|" = closed.length := by
  rw [splitting.whole, List.count_append, count_terminated splitting.free,
    List.count_eq_zero.mpr splitting.last_free, Nat.add_zero]

theorem start_last : start (closed ++ [last]) closed.length = (terminated "|" closed).length := by
  rw [start, List.take_left]

theorem start_closed (early : j ≤ closed.length) : start (closed ++ [last]) j = start closed j := by
  rw [start, List.take_append_of_le_length early, start]

theorem Splitting.position (splitting : Splitting argv done f closed last) :
    done.length = (terminated "|" closed).length + last.length := by
  rw [splitting.whole, List.length_append]

/-- The fragment that is being filled has an entry in the arrays. -/
theorem Splitting.room (splitting : Splitting argv done f closed last)
    (line : argv = done ++ word :: rest) : f.frag < argv.length := by
  have bars := splitting.bars
  have fewer : done.count "|" ≤ done.length := List.count_le_length
  rw [splitting.frag, line, List.length_append, List.length_cons]
  omega

/-- One fragment has changed, and with it its entries in the arrays. -/
theorem Describes.changed {f' : Fragments} {size k : Nat} {parts parts' : List (List String)}
    {changed : List String} (describes : Describes f size parts) (inside : k < f.Vargc.length)
    (Vargc : f'.Vargc = f.Vargc.set k (some changed.length))
    (length : f'.Vargv.length = f.Vargv.length) (this : parts'[k]? = some changed)
    (others : ∀ (j : Nat) (part : List String), j ≠ k → parts'[j]? = some part →
      parts[j]? = some part ∧ start parts' j = start parts j)
    (kept : ∀ j, j ≠ k → f'.Vargv.load j = f.Vargv.load j)
    (first : changed ≠ [] → f'.Vargv.load k = some (start parts' k)) :
    Describes f' size parts' where
  Vargc := by rw [Vargc, List.length_set, describes.Vargc]
  Vargv := length.trans describes.Vargv
  counts j part found := by
    rw [Vargc]
    by_cases same : j = k
    · subst same
      cases this.symm.trans found
      exact Table.load_set inside
    · rw [Table.load_set_ne (Ne.symm same)]
      exact describes.counts j part (others j part same found).1
  firsts j part found some_words := by
    by_cases same : j = k
    · subst same
      cases this.symm.trans found
      exact first some_words
    · obtain ⟨before, same_start⟩ := others j part same found
      rw [kept j same, same_start]
      exact describes.firsts j part before some_words

/-- A word goes to the fragment that is being filled. -/
theorem Splitting.add_word (splitting : Splitting argv done f closed last)
    (line : argv = done ++ word :: rest) (other : word ≠ "|") :
    ∃ f', splitWord f done.length word = some f' ∧
      Splitting argv (done ++ [word]) f' closed (last ++ [word]) := by
  have room := splitting.room line
  have describes := splitting.describes
  have inside : f.frag < f.Vargc.length := describes.Vargc ▸ room
  have inside' : f.frag < f.Vargv.length := describes.Vargv ▸ room
  have before : (closed ++ [last])[f.frag]? = some last := by
    rw [splitting.frag, List.getElem?_concat_length]
  have here : f.Vargc.load f.frag = some last.length := describes.counts f.frag last before
  have last_free : "|" ∉ last ++ [word] := by
    simp only [List.mem_append, List.mem_singleton, not_or]
    exact ⟨splitting.last_free, other.symm⟩
  have whole : done ++ [word] = terminated "|" closed ++ (last ++ [word]) := by
    rw [splitting.whole, List.append_assoc]
  have this : (closed ++ [last ++ [word]])[f.frag]? = some (last ++ [word]) := by
    rw [splitting.frag, List.getElem?_concat_length]
  have length : (last ++ [word]).length = last.length + 1 := by
    rw [List.length_append, List.length_singleton]
  have others : ∀ (j : Nat) (part : List String), j ≠ f.frag →
      (closed ++ [last ++ [word]])[j]? = some part → (closed ++ [last])[j]? = some part ∧
        start (closed ++ [last ++ [word]]) j = start (closed ++ [last]) j := by
    intro j part different found
    have early : j < closed.length := by
      have bound := (List.getElem?_eq_some_iff.mp found).1
      rw [List.length_append, List.length_singleton] at bound
      rw [splitting.frag] at different
      omega
    rw [List.getElem?_append_left early] at found ⊢
    exact ⟨found, by rw [start_closed (Nat.le_of_lt early), start_closed (Nat.le_of_lt early)]⟩
  have begins : start (closed ++ [last ++ [word]]) f.frag = start (closed ++ [last]) f.frag := by
    rw [splitting.frag, start_last, start_last]
  rw [splitWord, if_pos other, here, Option.bind_some, Table.store_inside inside, Option.bind_some]
  by_cases empty : last = []
  · -- The first word of a fragment.
    rw [if_pos (by simp [empty]), Table.store_inside inside', Option.map_some]
    refine ⟨_, rfl, whole, splitting.free, last_free, splitting.frag, ?_⟩
    refine describes.changed inside (by rw [length]) List.length_set this others
      (fun j different => Table.load_set_ne different.symm) fun _ => ?_
    rw [Table.load_set inside', splitting.position, empty, List.length_nil, Nat.add_zero,
      splitting.frag, start_last]
  · have more : ¬ last.length + 1 = 1 := by
      rw [Nat.add_eq_right, List.length_eq_zero_iff]
      exact empty
    rw [if_neg more]
    refine ⟨_, rfl, whole, splitting.free, last_free, splitting.frag, ?_⟩
    refine describes.changed inside (by rw [length]) rfl this others (fun _ _ => rfl) fun _ => ?_
    rw [begins]
    exact describes.firsts f.frag last before empty

/-- A bar begins another fragment, if there is an entry for it. -/
theorem Splitting.add_bar (splitting : Splitting argv done f closed last)
    (room : f.frag + 1 < argv.length) :
    ∃ f', splitWord f done.length "|" = some f' ∧
      Splitting argv (done ++ ["|"]) f' (closed ++ [last]) [] := by
  have inside : f.frag + 1 < f.Vargc.length := splitting.describes.Vargc ▸ room
  have length : (closed ++ [last]).length = f.frag + 1 := by
    rw [List.length_append, List.length_singleton, splitting.frag]
  have free : ∀ part ∈ closed ++ [last], "|" ∉ part := by
    intro part member
    rcases List.mem_append.mp member with early | late
    · exact splitting.free part early
    · rw [List.mem_singleton.mp late]
      exact splitting.last_free
  have whole : done ++ ["|"] = terminated "|" (closed ++ [last]) ++ [] := by
    simp [splitting.whole, terminated]
  have this : ((closed ++ [last]) ++ [[]])[f.frag + 1]? = some [] := by
    rw [← length, List.getElem?_concat_length]
  have others : ∀ (j : Nat) (part : List String), j ≠ f.frag + 1 →
      ((closed ++ [last]) ++ [[]])[j]? = some part → (closed ++ [last])[j]? = some part ∧
        start ((closed ++ [last]) ++ [[]]) j = start (closed ++ [last]) j := by
    intro j part different found
    have early : j < (closed ++ [last]).length := by
      have bound := (List.getElem?_eq_some_iff.mp found).1
      rw [List.length_append, List.length_singleton] at bound
      omega
    rw [List.getElem?_append_left early] at found
    exact ⟨found, start_closed (Nat.le_of_lt early)⟩
  rw [splitWord, if_neg (by simp), Table.store_inside inside, Option.map_some]
  refine ⟨_, rfl, whole, free, by simp, length.symm, ?_⟩
  exact splitting.describes.changed inside rfl rfl this others (fun _ _ => rfl)
    fun some_words => absurd rfl some_words

theorem splitLoop_splits (bars : argv.count "|" < argv.length) (line : argv = done ++ rest)
    (splitting : Splitting argv done f closed last) :
    ∃ f' closed' last', splitLoop done.length f rest = some f' ∧
      Splitting argv argv f' closed' last' := by
  induction rest generalizing done f closed last with
  | nil =>
    rw [List.append_nil] at line
    exact ⟨f, closed, last, rfl, line ▸ splitting⟩
  | cons word rest ih =>
    have length : (done ++ [word]).length = done.length + 1 := by simp
    have line' : argv = (done ++ [word]) ++ rest := by rw [line, List.append_assoc]; rfl
    by_cases other : word ≠ "|"
    · obtain ⟨f', round, next⟩ := splitting.add_word line other
      rw [splitLoop, round, Option.bind_some, ← length]
      exact ih line' next
    · obtain rfl := not_not.mp other
      have room : f.frag + 1 < argv.length := by
        have count := congrArg (List.count "|") line'
        rw [List.count_append, List.count_append, splitting.bars, List.count_singleton_self] at count
        rw [splitting.frag]
        omega
      obtain ⟨f', round, next⟩ := splitting.add_bar room
      rw [splitLoop, round, Option.bind_some, ← length]
      exact ih line' next

/-- With bars only, the last one has no entry in the arrays. -/
theorem splitLoop_bars {n i : Nat} (full : f.Vargc.length ≤ f.frag + n) (some_bars : 0 < n) :
    splitLoop i f (List.replicate n "|") = none := by
  induction n generalizing f i with
  | zero => exact absurd some_bars (Nat.lt_irrefl 0)
  | succ n ih =>
    rw [List.replicate_succ, splitLoop, splitWord, if_neg (by simp)]
    by_cases inside : f.frag + 1 < f.Vargc.length
    · rw [Table.store_inside inside, Option.map_some, Option.bind_some]
      refine ih ?_ (by omega)
      simp only [List.length_set]
      omega
    · rw [Table.store, if_neg inside]
      rfl

/-! ### The fragments -/

theorem intercalate_concat (closed : List (List String)) (last : List String) :
    ["|"].intercalate (closed ++ [last]) = terminated "|" closed ++ last := by
  induction closed with
  | nil => simp [List.intercalate]
  | cons part closed ih =>
    obtain ⟨next, others, cons⟩ := List.exists_cons_of_ne_nil (List.concat_ne_nil last closed)
    rw [cons] at ih
    rw [List.cons_append, cons, terminated_cons]
    simp only [List.intercalate, List.intersperse_cons_cons, List.flatten_cons] at ih ⊢
    rw [ih]
    simp

/-- What the arrays hold for a line that has been split. -/
structure IsSplit (argv : List String) (f : Fragments) (parts : List (List String)) : Prop where
  frag : f.frag = parts.length
  describes : Describes f argv.length parts
  joined : ["|"].intercalate parts = argv
  free : ∀ part ∈ parts, "|" ∉ part
  words : ∀ j part, parts[j]? = some part → words argv f j = some part

/-- A fragment is in the line where it begins. -/
theorem line_at (found : (closed ++ [last])[j]? = some part) :
    ∃ more, terminated "|" closed ++ last =
      terminated "|" ((closed ++ [last]).take j) ++ (part ++ more) := by
  by_cases early : j < closed.length
  · rw [List.getElem?_append_left early] at found
    obtain ⟨-, rfl⟩ := List.getElem?_eq_some_iff.mp found
    have parts : closed = closed.take j ++ closed[j] :: closed.drop (j + 1) := by
      rw [← List.drop_eq_getElem_cons early, List.take_append_drop]
    refine ⟨"|" :: terminated "|" (closed.drop (j + 1)) ++ last, ?_⟩
    rw [List.take_append_of_le_length (Nat.le_of_lt early)]
    have joined : terminated "|" closed = terminated "|" (closed.take j) ++
        terminated "|" (closed[j] :: closed.drop (j + 1)) := by
      rw [terminated, terminated, terminated, ← List.flatMap_append, ← parts]
    rw [joined, terminated_cons, List.append_assoc, List.append_assoc]
  · obtain rfl : j = closed.length := by
      have bound := (List.getElem?_eq_some_iff.mp found).1
      rw [List.length_append, List.length_singleton] at bound
      omega
    rw [List.getElem?_concat_length] at found
    obtain rfl := Option.some.inj found
    exact ⟨[], by rw [List.take_left, List.append_nil]⟩

theorem Splitting.isSplit (splitting : Splitting argv argv f closed last) :
    IsSplit argv { f with frag := f.frag + 1 } (closed ++ [last]) where
  frag := by rw [splitting.frag, List.length_append, List.length_singleton]
  describes := ⟨splitting.describes.Vargc, splitting.describes.Vargv, splitting.describes.counts,
    splitting.describes.firsts⟩
  joined := by rw [intercalate_concat, ← splitting.whole]
  free part member := by
    rcases List.mem_append.mp member with early | late
    · exact splitting.free part early
    · rw [List.mem_singleton.mp late]
      exact splitting.last_free
  words j part found := by
    have count : f.Vargc.load j = some part.length := splitting.describes.counts j part found
    rw [ShellLine.words]
    dsimp only
    rw [count, Option.bind_some]
    by_cases empty : part = []
    · simp [empty]
    · have first := splitting.describes.firsts j part found empty
      obtain ⟨more, line⟩ := line_at found
      rw [if_neg (by simpa using empty), first, Option.map_some, splitting.whole, line, start,
        List.drop_left, List.take_left]

theorem split_isSplit (some_word : ∃ word ∈ argv, word ≠ "|") :
    ∃ f parts, split argv = some f ∧ IsSplit argv f parts := by
  have bars : argv.count "|" < argv.length := by
    apply Nat.lt_of_le_of_ne List.count_le_length
    intro all
    obtain ⟨word, member, other⟩ := some_word
    exact other (List.count_eq_length.mp all word member).symm
  have inside : 0 < (declare Nat argv.length).length := by
    rw [declare, List.length_replicate]
    omega
  have begins : Splitting argv [] { Vargc := (declare Nat argv.length).set 0 (some 0)
                                    Vargv := declare Nat argv.length, frag := 0 } [] [] := by
    refine ⟨rfl, by simp, by simp, rfl, by simp [declare], by simp [declare], ?_, ?_⟩
    · intro j part found
      obtain ⟨rfl, rfl⟩ : j = 0 ∧ part = [] := by
        cases j <;> simp_all
      exact Table.load_set inside
    · intro j part found some_words
      cases j <;> simp_all
  obtain ⟨f, closed, last, ran, splitting⟩ := splitLoop_splits bars rfl begins
  refine ⟨_, _, ?_, splitting.isSplit⟩
  rw [split, Table.store_inside inside, Option.bind_some]
  exact Option.map_eq_some_iff.mpr ⟨f, ran, rfl⟩

theorem split_bars (bars : ∀ word ∈ argv, word = "|") (some_word : argv ≠ []) :
    split argv = none := by
  have all : argv = List.replicate argv.length "|" := List.eq_replicate_iff.mpr ⟨rfl, bars⟩
  have positive := List.length_pos_iff.mpr some_word
  have inside : 0 < (declare Nat argv.length).length := by
    rw [declare, List.length_replicate]
    exact positive
  rw [split, Table.store_inside inside, Option.bind_some]
  have leaves := @splitLoop_bars ⟨(declare Nat argv.length).set 0 (some 0),
    declare Nat argv.length, 0⟩ argv.length 0 (by simp [declare]) positive
  rw [← all] at leaves
  rw [leaves]
  rfl

/-! ### The checks -/

theorem IsSplit.last_left (parts : List (List String)) {left : Nat} (enough : left + 1 ≤ parts.length) :
    ∃ part, parts[parts.length - (left + 1)]? = some part ∧
      parts.drop (parts.length - (left + 1)) = part :: parts.drop (parts.length - left) := by
  have inside : parts.length - (left + 1) < parts.length := by omega
  refine ⟨parts[parts.length - (left + 1)], List.getElem?_eq_getElem inside, ?_⟩
  rw [List.drop_eq_getElem_cons inside, show parts.length - (left + 1) + 1 = parts.length - left by omega]

theorem IsSplit.fragments (is_split : IsSplit argv f parts) {left : Nat} (enough : left ≤ f.frag) :
    fragments argv f left = some (parts.drop (f.frag - left)) := by
  induction left with
  | zero => simp [ShellLine.fragments, is_split.frag]
  | succ left ih =>
    rw [is_split.frag] at enough
    obtain ⟨part, found, rest⟩ := IsSplit.last_left parts enough
    rw [ShellLine.fragments, is_split.frag, is_split.words _ part found, Option.bind_some]
    rw [is_split.frag] at ih
    rw [ih (by omega), Option.map_some, rest]

theorem IsSplit.checkFragment (is_split : IsSplit argv f parts) (found : parts[j]? = some part) :
    ∃ checked, checkFragment argv f j = some checked ∧
      ((∃ printed, checked = .error printed) ↔ Faulty part) := by
  have count := is_split.describes.counts j part found
  rw [ShellLine.checkFragment, count, Option.bind_some]
  cases part with
  | nil => exact ⟨_, if_pos rfl, by simp [Faulty]⟩
  | cons word rest =>
    have first := is_split.describes.firsts j _ found (by simp)
    have line := is_split.words j _ found
    rw [ShellLine.words, count, Option.bind_some, if_neg (by simp), first, Option.map_some,
      Option.some.injEq, List.length_cons] at line
    have here : argv[start parts j]? = some word := by
      have head := congrArg List.head? line
      rw [List.head?_take, if_neg (by simp), List.head?_drop, List.head?_cons] at head
      exact head
    rw [if_neg (by simp), first, Option.bind_some, here, Option.map_some]
    refine ⟨_, rfl, ?_⟩
    have unknown : (commands.findIdx? fun command => command.cmdname = word) = none ↔
        ∀ command ∈ commands, command.cmdname ≠ word := by
      simp [List.findIdx?_eq_none_iff]
    have faulty : Faulty (word :: rest) ↔ ∀ command ∈ commands, command.cmdname ≠ word := by
      simp [Faulty]
    rw [faulty, ← unknown]
    cases commands.findIdx? fun command => command.cmdname = word <;> simp

theorem IsSplit.checkLoop (is_split : IsSplit argv f parts) {left : Nat} (enough : left ≤ f.frag)
    {comd : Table Nat} (size : comd.length = f.frag) :
    ∃ checked, checkLoop argv f comd left = some checked ∧
      ((∃ printed, checked = .error printed) ↔
        ∃ part ∈ parts.drop (f.frag - left), Faulty part) := by
  induction left generalizing comd with
  | zero => exact ⟨_, rfl, by simp [is_split.frag]⟩
  | succ left ih =>
    have enough' : left + 1 ≤ parts.length := is_split.frag ▸ enough
    obtain ⟨part, found, rest⟩ := IsSplit.last_left parts enough'
    rw [← is_split.frag] at found rest
    obtain ⟨checked, here, faulty⟩ := is_split.checkFragment found
    rw [ShellLine.checkLoop, here, Option.bind_some, rest]
    cases checked with
    | error printed =>
      exact ⟨_, rfl, by simp [faulty.mp ⟨printed, rfl⟩]⟩
    | ok c =>
      have sound : ¬ Faulty part := fun fault => by
        obtain ⟨printed, same⟩ := faulty.mpr fault
        cases same
      have inside : f.frag - (left + 1) < comd.length := by omega
      obtain ⟨checked, later, faulty'⟩ := @ih (by omega)
        (comd.set (f.frag - (left + 1)) (some c)) (by rw [List.length_set, size])
      dsimp only
      rw [Table.store_inside inside, Option.bind_some]
      exact ⟨checked, later, by simp [faulty', sound]⟩

end

/-- **Lines are split exactly**, with all arrays used inside their sizes, if and
only if some word is not a bar: a line of `argc` bars has `argc + 1` fragments, and
`Vargc` has no entry for the last one. -/
theorem splits_iff {argv : List String} (some_word : argv ≠ []) :
    Splits argv ↔ ∃ word ∈ argv, word ≠ "|" := by
  constructor
  · rintro ⟨f, parts, checked, ran, -⟩
    by_contra bars
    have none : split argv = none := split_bars (by simpa using bars) some_word
    cases none.symm.trans ran
  · intro other
    obtain ⟨f, parts, ran, is_split⟩ := split_isSplit other
    have size : (declare Nat f.frag).length = f.frag := List.length_replicate
    obtain ⟨checked, checks, faulty⟩ := is_split.checkLoop (Nat.le_refl f.frag) size
    have all := is_split.fragments (Nat.le_refl f.frag)
    rw [Nat.sub_self, List.drop_zero] at all faulty
    refine ⟨f, parts, checked, ran, all, is_split.joined, is_split.free, checks, faulty, ?_⟩
    rintro printed rfl sh garbage nulls outcomes
    rw [processLine, ran, Option.bind_some, check, checks, Option.bind_some]

/-- `wc | nothing`, which is rejected. -/
theorem splits_iff_two : Splits ["wc", "|", "nothing"] :=
  (splits_iff (by simp)).mpr ⟨"wc", by simp, by simp⟩

/-- A line that is one bar: the second fragment is written outside `Vargc`. -/
theorem one_bar : split ["|"] = none ∧ ¬ Splits ["|"] := by
  have outside : split ["|"] = none := split_bars (by simp) (by simp)
  refine ⟨outside, ?_⟩
  rintro ⟨f, parts, checked, ran, -⟩
  cases outside.symm.trans ran

end TinyOs.ShellLine
