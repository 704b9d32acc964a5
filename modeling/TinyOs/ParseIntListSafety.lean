import Mathlib.Data.List.Dedup
import Mathlib.Data.List.Induction
import Mathlib.Data.Int.Interval
import Mathlib.Data.List.TakeWhile
import TinyOs.ParseIntList

/-! The list `parse_int_list` stores, against the numbers the text writes. The search for
duplicates looks at the old contents of `nlist`, and `strtol`'s result is made an `int`,
so this holds for some texts only; the condition is exact. -/
namespace TinyOs.ParseIntList

/-! ### The tokens -/

/-- The parts between the commas that are not empty. -/
def tokens (text : List Char) : List (List Char) :=
  (text.splitOn ',').filter fun token => decide (token ≠ [])

section
variable {text token rest : List Char}

theorem tokens_comma : tokens (',' :: text) = tokens text := by
  simp [tokens, List.splitOn_cons_eq_if_modifyHead]

theorem tokens_skipped : tokens (text.dropWhile (· = ',')) = tokens text := by
  induction text with
  | nil => rfl
  | cons c text ih =>
    by_cases comma : c = ','
    · subst comma
      rw [List.dropWhile_cons_of_pos (by simp), ih, tokens_comma]
    · rw [List.dropWhile_cons_of_neg (by simpa using comma)]

theorem tokens_last (nonempty : token ≠ []) (plain : ',' ∉ token) : tokens token = [token] := by
  simp [tokens, List.splitOn_eq_singleton plain, nonempty]

theorem tokens_word (nonempty : token ≠ []) (plain : ',' ∉ token) :
    tokens (token ++ ',' :: rest) = token :: tokens rest := by
  simp [tokens, List.splitOn_append_cons_self_of_not_mem plain, nonempty]

theorem strtok_none (last : strtok text = none) : tokens text = [] := by
  unfold strtok at last
  dsimp only at last
  split at last
  next empty => rw [← tokens_skipped, empty]; rfl
  next => cases last

theorem strtok_some (next : strtok text = some (token, rest)) :
    tokens text = token :: tokens rest := by
  unfold strtok at next
  dsimp only at next
  split at next
  next => cases next
  next left =>
    obtain ⟨rfl, rfl⟩ : _ = token ∧ _ = rest := by
      simpa only [Option.some.injEq, Prod.mk.injEq] using next
    rw [← tokens_skipped]
    cases skipped : text.dropWhile (· = ',') with
    | nil => exact absurd skipped left
    | cons c more =>
      have first : c ≠ ',' := by
        have stops := List.head?_dropWhile_not (fun c : Char => decide (c = ',')) text
        rw [skipped] at stops
        simpa using stops
      have nonempty : (c :: more).takeWhile (· ≠ ',') ≠ [] := by simp [first]
      have plain : ',' ∉ (c :: more).takeWhile (· ≠ ',') := fun inside => by
        simpa using List.mem_takeWhile_imp inside
      have parts := List.takeWhile_append_dropWhile (p := fun c : Char => decide (c ≠ ','))
        (l := c :: more)
      cases after : (c :: more).dropWhile (· ≠ ',') with
      | nil =>
        rw [after, List.append_nil] at parts
        calc tokens (c :: more) = tokens ((c :: more).takeWhile (· ≠ ',')) := by rw [parts]
          _ = [(c :: more).takeWhile (· ≠ ',')] := tokens_last nonempty plain
      | cons d rest =>
        have comma : d = ',' := by
          have stops := List.head?_dropWhile_not (fun c : Char => decide (c ≠ ',')) (c :: more)
          rw [after] at stops
          simpa using stops
        rw [after, comma] at parts
        calc tokens (c :: more)
          _ = tokens ((c :: more).takeWhile (· ≠ ',') ++ ',' :: rest) := by rw [parts]
          _ = (c :: more).takeWhile (· ≠ ',') :: tokens rest := tokens_word nonempty plain

end

/-- The loop, over the tokens. -/
def readList (nlist : List Int) (from_ to_ : Int) : List (List Char) → List Int → Option Round
  | [], args => some (.kept args)
  | token :: more, args =>
    (readToken nlist from_ to_ token args).bind fun
      | .failed => some .failed
      | .kept args => readList nlist from_ to_ more args

theorem readTokens_eq (nlist : List Int) (from_ to_ : Int) (text : List Char) (args : List Int) :
    readTokens nlist from_ to_ text args = readList nlist from_ to_ (tokens text) args := by
  induction text, args using readTokens.induct with
  | case1 text args last =>
    rw [readTokens, strtok_none last]
    split
    next => rfl
    next _ _ next => cases last.symm.trans next
  | case2 text args token rest next ih =>
    rw [readTokens, strtok_some next]
    split
    next last => cases next.symm.trans last
    next _ _ again =>
      cases next.symm.trans again
      refine congrArg _ (funext fun round => ?_)
      cases round with
      | failed => rfl
      | kept args => exact ih args

/-! ### The numbers -/

/-- The signs, as factors. -/
inductive Sign : List Char → Int → Prop where
  | none : Sign [] 1
  | plus : Sign ['+'] 1
  | minus : Sign ['-'] (-1)

/-- The text is a decimal integer: white space, a sign and digits. -/
inductive Decimal : List Char → Int → Prop where
  | intro {space signed digits : List Char} {unit : Int} (spaces : ∀ c ∈ space, isspace c = true)
      (sign : Sign signed unit) (nonempty : digits ≠ []) (all : ∀ c ∈ digits, c.isDigit = true) :
      Decimal (space ++ (signed ++ digits)) (unit * decimal digits)

theorem not_space_of_digit {c : Char} (digit : c.isDigit = true) : isspace c = false := by
  obtain ⟨low, -⟩ : 48 ≤ c.val ∧ c.val ≤ 57 := by simpa [Char.isDigit] using digit
  have high : ¬ c ≤ '\r' := by
    intro (le : c.val ≤ 13)
    exact absurd (UInt32.le_trans low le) (by decide)
  have other : c ≠ ' ' := fun same => absurd (same ▸ low) (by decide)
  simp [isspace, high, other]

theorem sign_spec (text : List Char) :
    ∃ signed, Sign signed (sign text).1 ∧ text = signed ++ (sign text).2 := by
  unfold sign
  split
  next rest => exact ⟨['-'], .minus, rfl⟩
  next rest => exact ⟨['+'], .plus, rfl⟩
  next => exact ⟨[], .none, rfl⟩

theorem sign_append {signed digits : List Char} {unit : Int} (signs : Sign signed unit)
    (nonempty : digits ≠ []) (all : ∀ c ∈ digits, c.isDigit = true) :
    sign (signed ++ digits) = (unit, digits) ∧
      (signed ++ digits).dropWhile isspace = signed ++ digits := by
  cases signs with
  | plus => exact ⟨rfl, rfl⟩
  | minus => exact ⟨rfl, rfl⟩
  | none =>
    obtain ⟨c, more, rfl⟩ := List.exists_cons_of_ne_nil nonempty
    have digit := all c (by simp)
    refine ⟨?_, ?_⟩
    · unfold sign
      split
      next same => cases same; cases digit
      next same => cases same; cases digit
      next => rfl
    · exact List.dropWhile_cons_of_neg (by simp [not_space_of_digit digit])

theorem strtol_decimal {token : List Char} {value : Int} (number : Decimal token value) :
    strtol token = (clamp value, []) := by
  cases number with
  | @intro space signed digits unit spaces signs nonempty all =>
    obtain ⟨split, stays⟩ := sign_append signs nonempty all
    have taken : digits.takeWhile Char.isDigit = digits := List.takeWhile_eq_self_iff.mpr all
    have dropped : digits.dropWhile Char.isDigit = [] := List.dropWhile_eq_nil_iff.mpr all
    unfold strtol
    rw [List.dropWhile_append_of_pos spaces, stays, split]
    dsimp only
    rw [taken, dropped, if_neg nonempty]

theorem decimal_strtol {token : List Char} (nonempty : token ≠ [])
    (all : (strtol token).2 = []) :
    ∃ value, Decimal token value ∧ (strtol token).1 = clamp value := by
  obtain ⟨signed, signs, parts⟩ := sign_spec (token.dropWhile isspace)
  have whole := List.takeWhile_append_dropWhile (p := isspace) (l := token)
  unfold strtol at all ⊢
  dsimp only at all ⊢
  split at all
  next => exact absurd all nonempty
  next some_digits =>
    rw [if_neg some_digits]
    have digits : ∀ c ∈ (sign (token.dropWhile isspace)).2, c.isDigit = true :=
      List.dropWhile_eq_nil_iff.mp all
    have taken : (sign (token.dropWhile isspace)).2.takeWhile Char.isDigit =
        (sign (token.dropWhile isspace)).2 := List.takeWhile_eq_self_iff.mpr digits
    rw [taken] at some_digits ⊢
    refine ⟨_, ?_, rfl⟩
    have number : Decimal (token.takeWhile isspace ++
        (signed ++ (sign (token.dropWhile isspace)).2)) _ :=
      .intro (fun c inside => List.mem_takeWhile_imp inside) signs some_digits digits
    rwa [← parts, whole] at number

theorem number_iff {token : List Char} {num : Int} :
    number token = some num ↔ ∃ value, Decimal token value ∧ num = toInt (clamp value) := by
  unfold number
  constructor
  · intro read
    dsimp only at read
    split at read
    next => cases read
    next fine =>
      obtain ⟨moved, atEnd⟩ := not_or.mp fine
      have atEnd := not_not.mp atEnd
      have nonempty : token ≠ [] := fun empty => moved (atEnd.trans empty.symm)
      obtain ⟨value, decimal, same⟩ := decimal_strtol nonempty atEnd
      cases read
      exact ⟨value, decimal, congrArg toInt same⟩
  · rintro ⟨value, decimal, rfl⟩
    have nonempty : token ≠ [] := by
      cases decimal with
      | intro _ _ nonempty _ => simp [nonempty]
    rw [strtol_decimal decimal]
    dsimp only
    rw [if_neg (by simpa using nonempty.symm)]

theorem toInt_clamp {value : Int} (low : -0x80000000 ≤ value) (high : value ≤ 0x7fffffff) :
    toInt (clamp value) = value := by
  have inside : clamp value = value := by
    unfold clamp
    omega
  rw [inside]
  exact Int.bmod_eq_of_le (by omega) (by omega)

/-! ### The numbers that are kept -/

/-- A number after these is kept unless it is in the part of `nlist` that is searched. -/
def keepOne (nlist args : List Int) (num : Int) : List Int :=
  if num ∈ nlist.take args.length then args else args ++ [num]

/-- What is in `args` after these numbers. -/
def keep (nlist nums : List Int) : List Int := nums.foldl (keepOne nlist) []

section
variable {nlist args nums before : List Int} {num v : Int}

theorem keep_concat : keep nlist (before ++ [v]) = keepOne nlist (keep nlist before) v := by
  simp [keep]

theorem keepOne_skips (found : num ∈ nlist.take args.length) : keepOne nlist args num = args :=
  if_pos found

theorem keepOne_adds (missing : num ∉ nlist.take args.length) :
    keepOne nlist args num = args ++ [num] := if_neg missing

theorem keepOne_extends : args <+: keepOne nlist args num := by
  unfold keepOne
  split
  · exact List.prefix_rfl
  · exact List.prefix_append ..

theorem foldl_extends : args <+: nums.foldl (keepOne nlist) args := by
  induction nums generalizing args with
  | nil => exact List.prefix_rfl
  | cons num nums ih => exact keepOne_extends.trans ih

theorem keep_sublist : (keep nlist nums).Sublist nums := by
  induction nums using List.reverseRecOn with
  | nil => exact .slnil
  | append_singleton before v ih =>
    rw [keep_concat]
    by_cases found : v ∈ nlist.take (keep nlist before).length
    · rw [keepOne_skips found]
      exact ih.trans (List.sublist_append_left ..)
    · rw [keepOne_adds found]
      exact ih.append_right _

/-- What is nowhere in the part of `nlist` searched last was kept when it came. -/
theorem kept_of_missing (member : v ∈ nums)
    (missing : v ∉ nlist.take (keep nlist nums).length) : v ∈ keep nlist nums := by
  induction nums using List.reverseRecOn with
  | nil => cases member
  | append_singleton before u ih =>
    have grown : keep nlist before <+: keep nlist (before ++ [u]) :=
      keep_concat ▸ keepOne_extends
    have missed : v ∉ nlist.take (keep nlist before).length := fun found =>
      missing (List.take_subset_take_left nlist grown.length_le found)
    rcases List.mem_append.mp member with earlier | last
    · exact grown.subset (ih earlier missed)
    · obtain rfl := List.mem_singleton.mp last
      rw [keep_concat, keepOne_adds missed]
      simp

theorem keep_pos (nonempty : nums ≠ []) : 0 < (keep nlist nums).length := by
  by_contra none
  have empty : (keep nlist nums).length = 0 := Nat.eq_zero_of_not_pos none
  obtain ⟨v, member⟩ := List.exists_mem_of_ne_nil nums nonempty
  have missing : v ∉ nlist.take (keep nlist nums).length := by simp [empty]
  exact none (List.length_pos_of_mem (kept_of_missing member missing))

/-! ### The room they take -/

/-- As many numbers as could be kept, each not among as many elements of `nlist` as
there are numbers before it, fit into an array of this size. -/
def Fits (nlist nums : List Int) (size : Int) : Prop :=
  ∀ picked : List Int, picked.Sublist nums →
    (∀ (j : Nat) num, picked[j]? = some num → num ∉ nlist.take j) → picked.length ≤ size

theorem keep_missing {j : Nat} (kept : (keep nlist nums)[j]? = some num) :
    num ∉ nlist.take j := by
  induction nums using List.reverseRecOn with
  | nil => simp [keep] at kept
  | append_singleton before v ih =>
    rw [keep_concat] at kept
    by_cases found : v ∈ nlist.take (keep nlist before).length
    · rw [keepOne_skips found] at kept
      exact ih kept
    · rw [keepOne_adds found] at kept
      rw [List.getElem?_append] at kept
      split at kept
      next => exact ih kept
      next late =>
        have place : j = (keep nlist before).length := by
          have bound := (List.getElem?_eq_some_iff.mp kept).1
          rw [List.length_singleton] at bound
          omega
        rw [place, Nat.sub_self] at kept
        obtain rfl : v = num := by simpa using kept
        rwa [place]

/-- No other choice keeps more numbers than the loop does. -/
theorem keep_longest {picked : List Int} (sub : picked.Sublist nums)
    (missing : ∀ (j : Nat) num, picked[j]? = some num → num ∉ nlist.take j) :
    picked.length ≤ (keep nlist nums).length := by
  induction nums using List.reverseRecOn generalizing picked with
  | nil => simp [List.sublist_nil.mp sub]
  | append_singleton before v ih =>
    have grown : (keep nlist before).length ≤ (keep nlist (before ++ [v])).length :=
      (keep_concat ▸ keepOne_extends).length_le
    obtain ⟨early, late, rfl, sub, last⟩ := List.sublist_append_iff.mp sub
    have ahead : early.length ≤ (keep nlist before).length :=
      ih sub fun j num at_j => missing j num <| by
        rwa [List.getElem?_append_left (List.getElem?_eq_some_iff.mp at_j).1]
    rcases List.sublist_singleton.mp last with rfl | rfl
    · rw [List.append_nil]
      exact ahead.trans grown
    · rw [List.length_append, List.length_singleton]
      by_cases behind : early.length < (keep nlist before).length
      · exact behind.trans_le grown
      · have level : early.length = (keep nlist before).length := ahead.antisymm (not_lt.mp behind)
        have missed : v ∉ nlist.take (keep nlist before).length :=
          level ▸ missing early.length v (by simp)
        rw [keep_concat, keepOne_adds missed, List.length_append, List.length_singleton, level]

theorem fits_iff {size : Int} : Fits nlist nums size ↔ (keep nlist nums).length ≤ size := by
  constructor
  · exact fun fits => fits _ keep_sublist fun _ _ kept => keep_missing kept
  · intro room picked sub missing
    have longest := keep_longest sub missing
    omega

/-! ### The duplicates -/

/-- A number is in the part of `nlist` that is searched exactly when it is a duplicate:
that part has as many elements as there are distinct numbers before it. -/
def Agrees (nlist nums : List Int) : Prop :=
  ∀ before v after, nums = before ++ v :: after →
    (v ∈ before ↔ v ∈ nlist.take before.dedup.length)

/-- The distinct numbers are kept, each once. -/
structure KeepsDistinct (nlist nums : List Int) : Prop where
  once : (keep nlist nums).Nodup
  all : ∀ v ∈ nums, v ∈ keep nlist nums

theorem KeepsDistinct.length_eq (keeps : KeepsDistinct nlist nums) :
    (keep nlist nums).length = nums.dedup.length := by
  refine List.Perm.length_eq ((List.perm_ext_iff_of_nodup keeps.once nums.nodup_dedup).mpr ?_)
  intro v
  rw [List.mem_dedup]
  exact ⟨fun kept => keep_sublist.subset kept, keeps.all v⟩

theorem agrees_concat :
    Agrees nlist (before ++ [v]) ↔
      Agrees nlist before ∧ (v ∈ before ↔ v ∈ nlist.take before.dedup.length) := by
  constructor
  · intro agrees
    refine ⟨fun early u late same => ?_, agrees before v [] rfl⟩
    exact agrees early u (late ++ [v]) (by simp [same])
  · rintro ⟨agrees, own⟩ early u late same
    rcases List.eq_nil_or_concat late with rfl | ⟨late, w, rfl⟩
    · obtain ⟨rfl, last⟩ := List.append_inj' same rfl
      cases last
      exact own
    · rw [List.concat_eq_append, ← List.cons_append, ← List.append_assoc] at same
      exact agrees early u late (List.append_inj' same rfl).1

theorem keepsDistinct_concat :
    KeepsDistinct nlist (before ++ [v]) ↔
      KeepsDistinct nlist before ∧ (v ∈ before ↔ v ∈ nlist.take before.dedup.length) := by
  constructor
  · rintro ⟨once, all⟩
    rw [keep_concat] at once all
    have keeps : KeepsDistinct nlist before := by
      refine ⟨once.sublist keepOne_extends.sublist, fun u member => ?_⟩
      have kept := all u (List.mem_append_left _ member)
      by_cases found : v ∈ nlist.take (keep nlist before).length
      · rwa [keepOne_skips found] at kept
      · rw [keepOne_adds found] at kept
        rcases List.mem_append.mp kept with kept | last
        · exact kept
        · obtain rfl := List.mem_singleton.mp last
          exact kept_of_missing member found
    rw [← keeps.length_eq]
    refine ⟨keeps, fun duplicated => ?_, fun found => ?_⟩
    · by_contra found
      rw [keepOne_adds found] at once
      exact (List.nodup_append.mp once).2.2 v (keeps.all v duplicated) v (by simp) rfl
    · have kept := all v (by simp)
      rw [keepOne_skips found] at kept
      exact keep_sublist.subset kept
  · rintro ⟨keeps, own⟩
    rw [← keeps.length_eq] at own
    by_cases found : v ∈ nlist.take (keep nlist before).length
    · have same : keep nlist (before ++ [v]) = keep nlist before := by
        rw [keep_concat, keepOne_skips found]
      refine ⟨same ▸ keeps.once, fun u member => same ▸ ?_⟩
      rcases List.mem_append.mp member with earlier | last
      · exact keeps.all u earlier
      · obtain rfl := List.mem_singleton.mp last
        exact keeps.all u (own.mpr found)
    · have same : keep nlist (before ++ [v]) = keep nlist before ++ [v] := by
        rw [keep_concat, keepOne_adds found]
      refine ⟨same ▸ ?_, fun u member => same ▸ ?_⟩
      · refine List.nodup_append.mpr ⟨keeps.once, List.nodup_singleton v, ?_⟩
        rintro u kept w last rfl
        obtain rfl := List.mem_singleton.mp last
        exact found (own.mp (keep_sublist.subset kept))
      · rcases List.mem_append.mp member with earlier | last
        · exact List.mem_append_left _ (keeps.all u earlier)
        · exact List.mem_append_right _ last

theorem keepsDistinct_iff : KeepsDistinct nlist nums ↔ Agrees nlist nums := by
  induction nums using List.reverseRecOn with
  | nil =>
    refine ⟨fun _ before v after same => ?_, fun _ => ⟨.nil, by simp⟩⟩
    simp at same
  | append_singleton before v ih => rw [keepsDistinct_concat, agrees_concat, ih]

end

/-! ### The loop -/

/-- The token passes the checks, as this number. -/
def Accepts (from_ to_ : Int) (token : List Char) (num : Int) : Prop :=
  number token = some num ∧ from_ ≤ num ∧ num ≤ to_

section
variable {nlist args nums : List Int} {from_ to_ num : Int} {token : List Char}
  {accepted more : List (List Char)}

theorem duplicate_eq {i : Nat} (room : i ≤ nlist.length) :
    duplicate num i nlist = some (decide (num ∈ nlist.take i)) := by
  induction i generalizing nlist with
  | zero => simp [duplicate]
  | succ i ih =>
    cases nlist with
    | nil => simp at room
    | cons value nlist =>
      unfold duplicate
      split
      next same => simp [same]
      next other =>
        rw [ih (Nat.le_of_succ_le_succ room)]
        simp [other]

theorem readToken_rejects (rejected : ∀ num, ¬ Accepts from_ to_ token num) :
    readToken nlist from_ to_ token args = some .failed := by
  unfold readToken
  split
  next => rfl
  next num read =>
    rw [if_pos]
    by_contra inside
    obtain ⟨low, high⟩ := not_or.mp inside
    exact rejected num ⟨read, Int.not_lt.mp low, Int.not_lt.mp high⟩

theorem readToken_accepts (accepts : Accepts from_ to_ token num)
    (room : args.length ≤ nlist.length) :
    readToken nlist from_ to_ token args =
      if num ∈ nlist.take args.length ∨ args.length < to_ - from_ + 1 then
        some (.kept (keepOne nlist args num))
      else none := by
  obtain ⟨read, low, high⟩ := accepts
  unfold readToken
  simp only [read, duplicate_eq room, Option.bind_some, decide_eq_true_eq]
  rw [if_neg (by omega)]
  by_cases found : num ∈ nlist.take args.length
  · rw [if_pos found, if_pos (.inl found), keepOne_skips found]
  · rw [if_neg found, keepOne_adds found]
    simp [found]

theorem readList_accepted (all : List.Forall₂ (Accepts from_ to_) accepted nums)
    (large : to_ - from_ + 1 ≤ nlist.length)
    (room : (nums.foldl (keepOne nlist) args).length ≤ to_ - from_ + 1) :
    readList nlist from_ to_ (accepted ++ more) args =
      readList nlist from_ to_ more (nums.foldl (keepOne nlist) args) := by
  induction all generalizing args with
  | nil => rfl
  | @cons token num accepted nums accepts all ih =>
    have grown : (keepOne nlist args num).length ≤
        (nums.foldl (keepOne nlist) (keepOne nlist args num)).length :=
      foldl_extends.length_le
    have kept : args.length ≤ (keepOne nlist args num).length := keepOne_extends.length_le
    rw [List.foldl_cons] at room ⊢
    rw [List.cons_append, readList, readToken_accepts accepts (by omega), if_pos, Option.bind_some]
    · exact ih room
    · by_cases found : num ∈ nlist.take args.length
      · exact .inl found
      · have one := congrArg List.length (keepOne_adds found)
        rw [List.length_append, List.length_singleton] at one
        exact .inr (by omega)

theorem readList_overflows (all : List.Forall₂ (Accepts from_ to_) accepted nums)
    (large : to_ - from_ + 1 ≤ nlist.length) (fits : args.length ≤ to_ - from_ + 1)
    (overflow : to_ - from_ + 1 < (nums.foldl (keepOne nlist) args).length) :
    readList nlist from_ to_ (accepted ++ more) args = none := by
  induction all generalizing args with
  | nil => rw [List.foldl_nil] at overflow; omega
  | @cons token num accepted nums accepts all ih =>
    rw [List.foldl_cons] at overflow
    rw [List.cons_append, readList, readToken_accepts accepts (by omega)]
    split
    next room =>
      refine ih ?_ overflow
      by_cases found : num ∈ nlist.take args.length
      · rwa [keepOne_skips found]
      · rw [keepOne_adds found, List.length_append, List.length_singleton]
        have below := room.resolve_left found
        omega
    next => rfl

/-- The tokens up to the first one that is rejected. -/
theorem accepted_or_rejected (from_ to_ : Int) (all : List (List Char)) :
    (∃ nums, List.Forall₂ (Accepts from_ to_) all nums) ∨
      ∃ accepted token rest nums, all = accepted ++ token :: rest ∧
        List.Forall₂ (Accepts from_ to_) accepted nums ∧ ∀ num, ¬ Accepts from_ to_ token num := by
  induction all with
  | nil => exact .inl ⟨[], .nil⟩
  | cons token more ih =>
    by_cases accepts : ∃ num, Accepts from_ to_ token num
    · obtain ⟨num, accepts⟩ := accepts
      rcases ih with ⟨nums, all⟩ | ⟨accepted, first, rest, nums, rfl, all, rejected⟩
      · exact .inl ⟨num :: nums, .cons accepts all⟩
      · exact .inr ⟨token :: accepted, first, rest, num :: nums, rfl, .cons accepts all, rejected⟩
    · exact .inr ⟨[], token, more, [], rfl, .nil, not_exists.mp accepts⟩

end

section
variable {arg : List Char} {nlist nums : List Int} {from_ to_ : Int}
  {accepted rest : List (List Char)} {token : List Char}

/-- The result when every token is accepted. -/
theorem parse_accepted (nlen : Int) (all : List.Forall₂ (Accepts from_ to_) (tokens arg) nums)
    (ordered : from_ ≤ to_) (large : to_ - from_ + 1 ≤ nlist.length)
    (int : to_ - from_ + 1 ≤ 0x7fffffff) :
    parseIntList arg nlen nlist from_ to_ =
      if (keep nlist nums).length ≤ to_ - from_ + 1 then
        some {
          ret := if 0 < (keep nlist nums).length then 1 else 0
          nlen := (keep nlist nums).length
          nlist := sort (keep nlist nums) ++ nlist.drop (keep nlist nums).length }
      else none := by
  have whole : tokens arg ++ [] = tokens arg := List.append_nil _
  unfold parseIntList
  rw [if_pos int, readTokens_eq, ← whole]
  split
  next room =>
    rw [readList_accepted all large room]
    change (if (keep nlist nums).length ≤ nlist.length then _ else _) = _
    rw [if_pos (by omega)]
    rfl
  next overflow =>
    rw [readList_overflows all large (by simp; omega) (Int.not_le.mp overflow)]
    rfl

/-- The result when a token is rejected. -/
theorem parse_rejected (nlen : Int) (parts : tokens arg = accepted ++ token :: rest)
    (all : List.Forall₂ (Accepts from_ to_) accepted nums)
    (rejected : ∀ num, ¬ Accepts from_ to_ token num)
    (ordered : from_ ≤ to_) (large : to_ - from_ + 1 ≤ nlist.length)
    (int : to_ - from_ + 1 ≤ 0x7fffffff) :
    parseIntList arg nlen nlist from_ to_ =
      if (keep nlist nums).length ≤ to_ - from_ + 1 then
        some { ret := 0, nlen := nlen, nlist := nlist }
      else none := by
  unfold parseIntList
  rw [if_pos int, readTokens_eq, parts]
  split
  next room =>
    rw [readList_accepted all large room, readList, readToken_rejects rejected]
    rfl
  next overflow =>
    rw [readList_overflows all large (by simp; omega) (Int.not_le.mp overflow)]
    rfl

end

/-! ### What is stored -/

/-- The tokens are decimal integers with these values, from `from_` to `to_`. -/
structure Valid (arg : List Char) (from_ to_ : Int) (values : List Int) : Prop where
  decimal : List.Forall₂ Decimal (tokens arg) values
  inRange : ∀ v ∈ values, from_ ≤ v ∧ v ≤ to_

/-- The distinct values are in the array, in increasing order. -/
def Stored (nlist values : List Int) (out : Outcome) : Prop :=
  out.ret = 1 ∧ ∃ sorted : List Int, sorted.Pairwise (· < ·) ∧ (∀ v, v ∈ sorted ↔ v ∈ values) ∧
    out.nlen = sorted.length ∧ out.nlist = sorted ++ nlist.drop sorted.length

/-- The function stays inside its arrays, stores what a valid text says and leaves the
array alone otherwise. -/
def Meets (arg : List Char) (nlen : Int) (nlist : List Int) (from_ to_ : Int) : Prop :=
  ∃ out, parseIntList arg nlen nlist from_ to_ = some out ∧
    (∀ values, tokens arg ≠ [] → Valid arg from_ to_ values → Stored nlist values out) ∧
    ((tokens arg = [] ∨ ¬ ∃ values, Valid arg from_ to_ values) →
      out.ret = 0 ∧ out.nlist = nlist)

/-- The texts and arrays that are handled: either the text is valid and `nlist` holds a
value in the part searched exactly when it is a duplicate, or a token is rejected and
what is kept before it fits. -/
def Handled (arg : List Char) (nlist : List Int) (from_ to_ : Int) : Prop :=
  to_ - from_ + 1 ≤ 0x7fffffff ∧
    ((∃ values, Valid arg from_ to_ values ∧ Agrees nlist values) ∨
      ∃ accepted token rest nums, tokens arg = accepted ++ token :: rest ∧
        List.Forall₂ (Accepts from_ to_) accepted nums ∧
        (∀ num, ¬ Accepts from_ to_ token num) ∧ Fits nlist nums (to_ - from_ + 1))

section
variable {arg : List Char} {nlen : Int} {nlist nums values : List Int} {from_ to_ : Int}

theorem accepts_decimal {token : List Char} {value : Int} (decimal : Decimal token value)
    (inRange : from_ ≤ value ∧ value ≤ to_) (low : -0x80000000 ≤ from_)
    (high : to_ ≤ 0x7fffffff) : Accepts from_ to_ token value := by
  refine ⟨number_iff.mpr ⟨value, decimal, ?_⟩, inRange⟩
  exact (toInt_clamp (by omega) (by omega)).symm

theorem Valid.accepted (valid : Valid arg from_ to_ values) (low : -0x80000000 ≤ from_)
    (high : to_ ≤ 0x7fffffff) : List.Forall₂ (Accepts from_ to_) (tokens arg) values := by
  obtain ⟨decimal, inRange⟩ := valid
  generalize tokens arg = all at decimal
  induction decimal with
  | nil => exact .nil
  | cons first more ih =>
    refine .cons (accepts_decimal first (inRange _ (by simp)) low high) (ih fun v member => ?_)
    exact inRange v (List.mem_cons_of_mem _ member)

theorem sort_perm : (sort nums).Perm nums := List.mergeSort_perm ..

theorem sort_increasing (once : nums.Nodup) : (sort nums).Pairwise (· < ·) := by
  have ordered : (sort nums).Pairwise fun a b => (!decide (b < a)) = true :=
    List.pairwise_mergeSort (by simp; omega) (by simp; omega) nums
  have different : (sort nums).Pairwise (· ≠ ·) := sort_perm.nodup_iff.mpr once
  refine (ordered.and different).imp fun {a b} both => ?_
  have le : ¬ b < a := by simpa using both.1
  have ne := both.2
  omega

/-- Values that are kept once each fit. -/
theorem KeepsDistinct.room (keeps : KeepsDistinct nlist values)
    (inRange : ∀ v ∈ values, from_ ≤ v ∧ v ≤ to_) (ordered : from_ ≤ to_) :
    (keep nlist values).length ≤ to_ - from_ + 1 := by
  have inside : (keep nlist values).toFinset ⊆ Finset.Icc from_ to_ := fun v member =>
    Finset.mem_Icc.mpr (inRange v (keep_sublist.subset (List.mem_toFinset.mp member)))
  have card := Finset.card_le_card inside
  rw [List.toFinset_card_of_nodup keeps.once, Int.card_Icc] at card
  omega

theorem stored_iff (valid : Valid arg from_ to_ values) (some_token : tokens arg ≠ [])
    (ordered : from_ ≤ to_) (low : -0x80000000 ≤ from_) (high : to_ ≤ 0x7fffffff)
    (large : to_ - from_ + 1 ≤ nlist.length) (int : to_ - from_ + 1 ≤ 0x7fffffff) :
    (∃ out, parseIntList arg nlen nlist from_ to_ = some out ∧ Stored nlist values out) ↔
      Agrees nlist values := by
  rw [parse_accepted nlen (valid.accepted low high) ordered large int, ← keepsDistinct_iff]
  constructor
  · rintro ⟨out, run, -, sorted, increasing, members, size, same⟩
    obtain ⟨-, run⟩ := Option.ite_none_right_eq_some.mp run
    cases run
    have sizes : (sort (keep nlist values)).length = sorted.length := by
      rw [sort_perm.length_eq]
      exact Int.ofNat.inj size
    obtain ⟨rfl, -⟩ := List.append_inj same sizes
    refine ⟨sort_perm.nodup_iff.mp (increasing.imp fun {a b} less => ne_of_lt less), fun v => ?_⟩
    intro member
    exact sort_perm.mem_iff.mp ((members v).mpr member)
  · intro keeps
    rw [if_pos (keeps.room valid.inRange ordered)]
    have some_value : values ≠ [] := by
      rintro rfl
      exact some_token (List.forall₂_nil_right_iff.mp valid.decimal)
    refine ⟨_, rfl, if_pos (keep_pos some_value), sort (keep nlist values), sort_increasing keeps.once,
      fun v => ?_, ?_, ?_⟩
    · rw [sort_perm.mem_iff]
      exact ⟨fun kept => keep_sublist.subset kept, keeps.all v⟩
    · exact congrArg Int.ofNat sort_perm.length_eq.symm
    · rw [sort_perm.length_eq]

theorem accepted_unique {all : List (List Char)} (first : List.Forall₂ (Accepts from_ to_) all nums)
    (second : List.Forall₂ (Accepts from_ to_) all values) : nums = values := by
  induction first generalizing values with
  | nil => exact (List.forall₂_nil_left_iff.mp second).symm
  | @cons token num all nums accepts first ih =>
    cases second with
    | @cons _ value _ values accepts' second =>
      cases accepts.1.symm.trans accepts'.1
      rw [ih second]

theorem not_accepted {accepted rest : List (List Char)} {token : List Char}
    (rejected : ∀ num, ¬ Accepts from_ to_ token num) :
    ¬ List.Forall₂ (Accepts from_ to_) (accepted ++ token :: rest) values := by
  induction accepted generalizing values with
  | nil =>
    intro all
    cases all with
    | cons accepts _ => exact rejected _ accepts
  | cons first accepted ih =>
    intro all
    cases all with
    | cons _ all => exact ih all

theorem valid_nil (none : tokens arg = []) : Valid arg from_ to_ [] where
  decimal := none ▸ .nil
  inRange := by simp

theorem meets_of_stored (valid : Valid arg from_ to_ values) (some_token : tokens arg ≠ [])
    (low : -0x80000000 ≤ from_) (high : to_ ≤ 0x7fffffff)
    (stored : ∃ out, parseIntList arg nlen nlist from_ to_ = some out ∧ Stored nlist values out) :
    Meets arg nlen nlist from_ to_ := by
  obtain ⟨out, run, stored⟩ := stored
  refine ⟨out, run, fun others _ valid' => ?_, fun invalid => ?_⟩
  · rwa [accepted_unique (valid'.accepted low high) (valid.accepted low high)]
  · rcases invalid with none | invalid
    · exact absurd none some_token
    · exact absurd ⟨values, valid⟩ invalid

/-- A text with no token leaves everything as it was. -/
theorem meets_nil (none : tokens arg = []) (ordered : from_ ≤ to_)
    (large : to_ - from_ + 1 ≤ nlist.length) (int : to_ - from_ + 1 ≤ 0x7fffffff) :
    Meets arg nlen nlist from_ to_ := by
  have all : List.Forall₂ (Accepts from_ to_) (tokens arg) [] := none ▸ .nil
  have run := parse_accepted nlen all ordered large int
  rw [if_pos (by simp [keep]; omega)] at run
  exact ⟨_, run, fun _ some_token => absurd none some_token, fun _ => ⟨rfl, by simp [keep, sort]⟩⟩

/-- **Whether `parse_int_list` does what it promises is decided by the text and the old
contents of the array.** -/
theorem stores_iff (arg : List Char) (nlen : Int) (nlist : List Int) (from_ to_ : Int)
    (ordered : from_ ≤ to_) (low : -0x80000000 ≤ from_) (high : to_ ≤ 0x7fffffff)
    (large : to_ - from_ + 1 ≤ nlist.length) :
    Meets arg nlen nlist from_ to_ ↔ Handled arg nlist from_ to_ := by
  constructor
  · intro meets
    have int : to_ - from_ + 1 ≤ 0x7fffffff := by
      by_contra overflow
      obtain ⟨out, run, -⟩ := meets
      rw [parseIntList, if_neg overflow] at run
      cases run
    refine ⟨int, ?_⟩
    rcases accepted_or_rejected from_ to_ (tokens arg) with
      ⟨nums, all⟩ | ⟨accepted, token, rest, nums, parts, all, rejected⟩
    · left
      by_cases valid : ∃ values, Valid arg from_ to_ values
      · by_cases none : tokens arg = []
        · exact ⟨[], valid_nil none, fun before v after same => by simp at same⟩
        · obtain ⟨values, valid⟩ := valid
          obtain ⟨out, run, stored, -⟩ := meets
          exact ⟨values, valid, (stored_iff valid none ordered low high large int).mp
            ⟨out, run, stored values none valid⟩⟩
      · have some_num : nums ≠ [] := by
          rintro rfl
          exact valid ⟨[], valid_nil (List.forall₂_nil_right_iff.mp all)⟩
        obtain ⟨out, run, -, failed⟩ := meets
        rw [parse_accepted nlen all ordered large int] at run
        obtain ⟨-, run⟩ := Option.ite_none_right_eq_some.mp run
        cases run
        have ret := (failed (.inr valid)).1
        rw [if_pos (keep_pos some_num)] at ret
        cases ret
    · right
      refine ⟨accepted, token, rest, nums, parts, all, rejected, fits_iff.mpr ?_⟩
      obtain ⟨out, run, -⟩ := meets
      rw [parse_rejected nlen parts all rejected ordered large int] at run
      exact (Option.ite_none_right_eq_some.mp run).1
  · rintro ⟨int, ⟨values, valid, agrees⟩ |
      ⟨accepted, token, rest, nums, parts, all, rejected, fits⟩⟩
    · by_cases none : tokens arg = []
      · exact meets_nil none ordered large int
      · exact meets_of_stored valid none low high
          ((stored_iff valid none ordered low high large int).mpr agrees)
    · have run := parse_rejected nlen parts all rejected ordered large int
      rw [if_pos (fits_iff.mp fits)] at run
      refine ⟨_, run, fun values _ valid => ?_, fun _ => ⟨rfl, rfl⟩⟩
      exact absurd (parts ▸ valid.accepted low high) (not_accepted rejected)

/-- A digit is a decimal integer. -/
theorem decimal_digit {c : Char} (digit : c.isDigit = true) :
    Decimal [c] ((c.toNat - '0'.toNat : Nat) : Int) := by
  have value : (1 : Int) * decimal [c] = ((c.toNat - '0'.toNat : Nat) : Int) := by simp [decimal]
  rw [← value]
  exact @Decimal.intro [] [] [c] 1 (by simp) .none (by simp) (List.forall_mem_singleton.mpr digit)

/-- The list `3` of terminals, over the initial `term_list`. -/
theorem stores_iff_terminal : Meets "3".toList 1 [0, 0, 0, 0, 0] 0 4 := by
  have valid : Valid "3".toList 0 4 [3] := ⟨.cons (decimal_digit rfl) .nil, by simp⟩
  refine (stores_iff _ _ _ _ _ (by decide) (by decide) (by decide) (by decide)).mpr
    ⟨by decide, .inl ⟨_, valid, fun before v after same => ?_⟩⟩
  cases before with
  | nil => simp
  | cons _ _ => simp at same

/-- Of the terminals `1,0` the second is dropped, as `term_list` has a 0 before, and a
repeated 1 is stored until there is no room. -/
theorem terminals_lost :
    ¬ Meets "1,0".toList 1 [0, 0, 0, 0, 0] 0 4 ∧
      ¬ Meets "1,1,1,1,1,1".toList 1 [0, 0, 0, 0, 0] 0 4 := by
  have valid : Valid "1,0".toList 0 4 [1, 0] :=
    ⟨.cons (decimal_digit rfl) (.cons (decimal_digit rfl) .nil), by simp⟩
  have kept : readList [0, 0, 0, 0, 0] 0 4 (tokens "1,0".toList) [] = some (.kept [1]) := by
    decide
  have overflow : readList [0, 0, 0, 0, 0] 0 4 (tokens "1,1,1,1,1,1".toList) [] = none := by
    decide
  refine ⟨fun meets => ?_, fun meets => ?_⟩
  · obtain ⟨out, run, stored, -⟩ := meets
    rw [parseIntList, readTokens_eq, kept] at run
    cases run
    obtain ⟨-, sorted, -, members, size, same⟩ := stored _ (by decide) valid
    have lost : sorted.length = 1 := (Int.ofNat.inj size).symm
    have both : [0, 1] ⊆ sorted := by
      intro v member
      apply (members v).mpr
      revert v
      decide
    have two := (List.Nodup.subperm (by decide) both).length_le
    rw [lost] at two
    exact absurd two (by decide)
  · obtain ⟨out, run, -⟩ := meets
    rw [parseIntList, readTokens_eq, overflow] at run
    cases run

end

end TinyOs.ParseIntList
