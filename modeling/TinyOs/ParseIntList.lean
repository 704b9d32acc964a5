import Mathlib.Data.List.Basic

/-! `parse_int_list` of `unit_testing.c`, which reads the lists of cores and of terminals
from the command line. A result of `none` means that an array is used outside its size,
or that the size of the temporary array is not an `int`. -/
namespace TinyOs.ParseIntList

/-! ### The library's part -/

/-- `strtok(text, ",")`: the next token, and the text that is left. -/
def strtok (text : List Char) : Option (List Char × List Char) :=
  let text := text.dropWhile (· = ',')
  if text = [] then none
  else some (text.takeWhile (· ≠ ','), (text.dropWhile (· ≠ ',')).drop 1)

def isspace (c : Char) : Bool :=
  c = ' ' || ('\t' ≤ c && c ≤ '\r')

/-- The sign at the start of the text, as a factor, and the text after it. -/
def sign : List Char → Int × List Char
  | '-' :: text => (-1, text)
  | '+' :: text => (1, text)
  | text => (1, text)

/-- The number these digits write. -/
def decimal (digits : List Char) : Nat :=
  digits.foldl (fun n c => 10 * n + (c.toNat - '0'.toNat)) 0

/-- A `long` that is as close to the number as possible. -/
def clamp (value : Int) : Int :=
  max (-0x8000000000000000) (min value 0x7fffffffffffffff)

/-- `strtol(token, &endptr, 10)`, with the text from `endptr`. -/
def strtol (token : List Char) : Int × List Char :=
  let (unit, text) := sign (token.dropWhile isspace)
  let digits := text.takeWhile Char.isDigit
  if digits = [] then (0, token)
  else (clamp (unit * decimal digits), text.dropWhile Char.isDigit)

/-- An `int` from a `long`. -/
def toInt (value : Int) : Int := value.bmod 0x100000000

/-! ### The function -/

/-- How a round of the loop ends: with `return 0`, or with these entries of `args` set. -/
inductive Round where
  | failed
  | kept (args : List Int)
  deriving DecidableEq, Repr

/-- The search among the first `i` elements of `nlist`. -/
def duplicate (num : Int) : Nat → List Int → Option Bool
  | 0, _ => some false
  | _ + 1, [] => none
  | i + 1, value :: nlist => if num = value then some true else duplicate num i nlist

/-- The number of a token, unless it is malformed. -/
def number (token : List Char) : Option Int :=
  let (value, endptr) := strtol token
  if endptr = token ∨ endptr ≠ [] then none else some (toInt value)

/-- One round of the loop. -/
def readToken (nlist : List Int) (from_ to_ : Int) (token : List Char) (args : List Int) :
    Option Round :=
  match number token with
  | none => some .failed
  | some num =>
    if num < from_ ∨ num > to_ then some .failed
    else
      (duplicate num args.length nlist).bind fun found =>
        if found then some (.kept args)
        else if args.length < to_ - from_ + 1 then some (.kept (args ++ [num])) else none

theorem strtok_shorter {text token rest : List Char} (next : strtok text = some (token, rest)) :
    rest.length < text.length := by
  unfold strtok at next
  dsimp only at next
  split at next
  next => cases next
  next left =>
    obtain ⟨-, rfl⟩ : _ ∧ _ = rest := by simpa only [Option.some.injEq, Prod.mk.injEq] using next
    have skipped := (List.dropWhile_sublist (l := text) (fun c : Char => decide (c = ','))).length_le
    have nonempty := List.length_pos_iff.mpr left
    have taken := (List.dropWhile_sublist (l := text.dropWhile fun c => decide (c = ','))
      (fun c : Char => decide (c ≠ ','))).length_le
    rw [List.length_drop]
    omega

def readTokens (nlist : List Int) (from_ to_ : Int) (text : List Char) (args : List Int) :
    Option Round :=
  match _next : strtok text with
  | none => some (.kept args)
  | some (token, rest) =>
    (readToken nlist from_ to_ token args).bind fun
      | .failed => some .failed
      | .kept args => readTokens nlist from_ to_ rest args
termination_by text.length
decreasing_by exact strtok_shorter _next

/-- What the caller sees: the value returned, `*nlen` and the array `nlist`. -/
structure Outcome where
  ret : Int
  nlen : Int
  nlist : List Int
  deriving DecidableEq, Repr

def sort (args : List Int) : List Int := args.mergeSort fun a b => !decide (b < a)

def parseIntList (arg : List Char) (nlen : Int) (nlist : List Int) (from_ to_ : Int) :
    Option Outcome :=
  if to_ - from_ + 1 ≤ 0x7fffffff then
    (readTokens nlist from_ to_ arg []).bind fun
      | .failed => some { ret := 0, nlen := nlen, nlist := nlist }
      | .kept args =>
        if args.length ≤ nlist.length then
          some {
            ret := if 0 < args.length then 1 else 0
            nlen := args.length
            nlist := sort args ++ nlist.drop args.length }
        else none
  else none

end TinyOs.ParseIntList
