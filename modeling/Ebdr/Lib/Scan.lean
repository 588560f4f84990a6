import Mathlib.Algebra.Group.Int.Defs
import Mathlib.Algebra.Group.Nat.Defs
import Mathlib.Data.List.TakeWhile
import Mathlib.Data.List.Forall2
import Mathlib.Tactic.Common

/-!
# Printing and scanning lines of words

`sprintf` with `%s` puts the words of a line behind each other with a blank between them, and `sscanf`
reads them back with `%s`, `%d` and `%lu`. Words have no white space in them, but may be empty;
decimal numbers have any number of digits. Numbers that are too large are read as the C library reads
them: `strtoul` stops at the largest value, and `%d` stores the low 32 bits of what `strtol` gives.

`scan_print_iff` says when a line is read back as it was printed: no word is empty and every number
fits the type that it is read into.
-/

namespace Scan

/-- `isspace`. -/
def isSpace (b : UInt8) : Bool := decide (b.toNat = 32 ∨ (9 ≤ b.toNat ∧ b.toNat ≤ 13))

/-- `isdigit`. -/
def isDigit (b : UInt8) : Bool := decide (48 ≤ b.toNat ∧ b.toNat ≤ 57)

/-- The conversions `%s`, `%d` and `%lu`. -/
inductive Conv where
  | str
  | int
  | ulong
  deriving DecidableEq, Repr

inductive Value where
  | str (s : List UInt8)
  | num (n : Int)
  deriving DecidableEq, Repr

/-- The number that a list of digits stands for. -/
def number (digits : List UInt8) : Nat := digits.foldl (fun n d => 10 * n + (d.toNat - 48)) 0

/-! ### Scanning -/

def skipSpaces (s : List UInt8) : List UInt8 := s.dropWhile isSpace

/-- A word: up to the next white space. -/
def scanWord (s : List UInt8) : Option (List UInt8 × List UInt8) :=
  let word := s.takeWhile fun b => !isSpace b
  if word = [] then none else some (word, s.drop word.length)

/-- An optional sign; `true` for a minus. -/
def scanSign : List UInt8 → Bool × List UInt8
  | [] => (false, [])
  | b :: s => if b = 45 then (true, s) else if b = 43 then (false, s) else (false, b :: s)

/-- A sign and digits. -/
def scanNumber (s : List UInt8) : Option ((Bool × Nat) × List UInt8) :=
  let (minus, s) := scanSign s
  let digits := s.takeWhile isDigit
  if digits = [] then none else some ((minus, number digits), s.drop digits.length)

/-- What `%d` stores. -/
def intOf (minus : Bool) (n : Nat) : Int :=
  let long : Int := if minus = true then max (-n) (-2 ^ 63) else min n (2 ^ 63 - 1)
  long.bmod (2 ^ 32)

/-- What `%lu` stores. -/
def ulongOf (minus : Bool) (n : Nat) : Int :=
  if 2 ^ 64 ≤ n then 2 ^ 64 - 1 else if minus = true then (2 ^ 64 - n) % 2 ^ 64 else n

/-- One conversion, with the rest of the line. -/
def scanOne (c : Conv) (s : List UInt8) : Option (Value × List UInt8) :=
  match c with
  | .str => (scanWord (skipSpaces s)).map fun p => (.str p.1, p.2)
  | .int => (scanNumber (skipSpaces s)).map fun p => (.num (intOf p.1.1 p.1.2), p.2)
  | .ulong => (scanNumber (skipSpaces s)).map fun p => (.num (ulongOf p.1.1 p.1.2), p.2)

/-- `sscanf`: the values stored up to the first conversion that fails. -/
def scan : List Conv → List UInt8 → List Value
  | [], _ => []
  | c :: cs, s =>
    match scanOne c s with
    | none => []
    | some (v, rest) => v :: scan cs rest

/-! ### Printing -/

/-- A string without white space. -/
structure Word where
  bytes : List UInt8
  noSpace : ∀ b ∈ bytes, isSpace b = false
  noNul : (0 : UInt8) ∉ bytes

/-- A decimal number as it is written. -/
structure Decimal where
  digits : List UInt8
  nonempty : digits ≠ []
  isDigit : ∀ b ∈ digits, isDigit b = true

def Decimal.value (d : Decimal) : Nat := number d.digits

/-- An argument of a command line. -/
inductive Arg where
  | word (w : Word)
  | number (d : Decimal)

namespace Arg

def text : Arg → List UInt8
  | word w => w.bytes
  | number d => d.digits

def value : Arg → Value
  | word w => .str w.bytes
  | number d => .num d.value

end Arg

/-- The arguments, each behind a blank. -/
def print (args : List Arg) : List UInt8 := args.flatMap fun a => 32 :: a.text

/-- The conversion is for this kind of argument. -/
def Matches : Conv → Arg → Prop
  | .str, .word _ => True
  | .int, .number _ => True
  | .ulong, .number _ => True
  | _, _ => False

/-- The argument is read back by the conversion. -/
def Fits : Conv → Arg → Prop
  | .str, .word w => w.bytes ≠ []
  | .int, .number d => d.value < 2 ^ 31
  | .ulong, .number d => d.value < 2 ^ 64
  | _, _ => False

/-- What stands behind a word: nothing, or white space first. -/
def Delimited (rest : List UInt8) : Prop := ∀ b ∈ rest.head?, isSpace b = true

/-! ### One argument -/

theorem isSpace_of_isDigit {b : UInt8} (h : isDigit b = true) : isSpace b = false := by
  have h := of_decide_eq_true h
  unfold isSpace
  rw [decide_eq_false_iff_not]
  omega

theorem Arg.noSpace (a : Arg) : ∀ b ∈ a.text, isSpace b = false := by
  cases a with
  | word w => exact w.noSpace
  | number d => exact fun b hb => isSpace_of_isDigit (d.isDigit b hb)

theorem Arg.noNul (a : Arg) : (0 : UInt8) ∉ a.text := by
  cases a with
  | word w => exact w.noNul
  | number d =>
    intro h
    cases d.isDigit 0 h

theorem Fits.text_ne_nil {c : Conv} {a : Arg} (h : Fits c a) : a.text ≠ [] := by
  cases a with
  | word w =>
    cases c with
    | str => exact h
    | int => exact absurd h id
    | ulong => exact absurd h id
  | number d => exact d.nonempty

theorem skipSpaces_print {w rest : List UInt8} (hne : w ≠ [])
    (h : ∀ b ∈ w, isSpace b = false) : skipSpaces (32 :: (w ++ rest)) = w ++ rest := by
  obtain ⟨b, w, rfl⟩ := List.exists_cons_of_ne_nil hne
  have hb : ¬ isSpace b = true := by simp [h b (by simp)]
  unfold skipSpaces
  rw [List.dropWhile_cons_of_pos (by decide), List.cons_append, List.dropWhile_cons_of_neg hb]

theorem takeWhile_append {p : UInt8 → Bool} {w rest : List UInt8} (hw : ∀ b ∈ w, p b = true)
    (hrest : ∀ b ∈ rest.head?, p b = false) : (w ++ rest).takeWhile p = w := by
  rw [List.takeWhile_append_of_pos hw]
  cases rest with
  | nil => simp
  | cons b rest =>
    have hb : ¬ p b = true := by simp [hrest b (by simp)]
    rw [List.takeWhile_cons_of_neg hb, List.append_nil]

theorem scanWord_append {w rest : List UInt8} (hne : w ≠ []) (h : ∀ b ∈ w, isSpace b = false)
    (hrest : Delimited rest) : scanWord (w ++ rest) = some (w, rest) := by
  have htake : (w ++ rest).takeWhile (fun b => !isSpace b) = w := by
    apply takeWhile_append
    · intro b hb
      simp [h b hb]
    · intro b hb
      simp [hrest b hb]
  unfold scanWord
  rw [htake, if_neg hne, List.drop_left]

theorem scanSign_of_isDigit {s : List UInt8} (h : ∀ b ∈ s.head?, isDigit b = true) :
    scanSign s = (false, s) := by
  cases s with
  | nil => rfl
  | cons b s =>
    have hb := h b (by simp)
    have h45 : b ≠ 45 := by
      rintro rfl
      cases hb
    have h43 : b ≠ 43 := by
      rintro rfl
      cases hb
    rw [scanSign, if_neg h45, if_neg h43]

theorem scanNumber_append (d : Decimal) {rest : List UInt8} (hrest : Delimited rest) :
    scanNumber (d.digits ++ rest) = some ((false, d.value), rest) := by
  have hsign : scanSign (d.digits ++ rest) = (false, d.digits ++ rest) := by
    apply scanSign_of_isDigit
    obtain ⟨b, ds, heq⟩ := List.exists_cons_of_ne_nil d.nonempty
    intro b' hb'
    rw [heq, List.cons_append, List.head?_cons, Option.mem_some_iff] at hb'
    apply d.isDigit
    rw [heq, ← hb']
    exact List.mem_cons_self ..
  have htake : (d.digits ++ rest).takeWhile isDigit = d.digits := by
    apply takeWhile_append d.isDigit
    intro b hb
    by_contra hd
    have hspace := isSpace_of_isDigit (Bool.of_not_eq_false hd)
    rw [hrest b hb] at hspace
    cases hspace
  unfold scanNumber
  rw [hsign]
  dsimp only
  rw [htake, if_neg d.nonempty, List.drop_left]
  rfl

theorem intOf_of_lt {n : Nat} (h : n < 2 ^ 31) : intOf false n = n := by
  have hmin : min (n : Int) (2 ^ 63 - 1) = n := by omega
  unfold intOf
  dsimp only
  rw [if_neg (by decide), hmin]
  exact Int.bmod_eq_of_le (by omega) (by omega)

theorem ulongOf_of_lt {n : Nat} (h : n < 2 ^ 64) : ulongOf false n = n := by
  unfold ulongOf
  rw [if_neg (by omega), if_neg (by decide)]

/-- **One argument is read back.** -/
theorem scanOne_print {c : Conv} {a : Arg} {rest : List UInt8} (h : Fits c a)
    (hrest : Delimited rest) : scanOne c (32 :: (a.text ++ rest)) = some (a.value, rest) := by
  have hskip : skipSpaces (32 :: (a.text ++ rest)) = a.text ++ rest :=
    skipSpaces_print h.text_ne_nil a.noSpace
  unfold scanOne
  cases a with
  | word w =>
    cases c with
    | str =>
      dsimp only
      rw [hskip]
      exact congrArg _ (scanWord_append h w.noSpace hrest)
    | int => exact absurd h id
    | ulong => exact absurd h id
  | number d =>
    cases c with
    | str => exact absurd h id
    | int =>
      dsimp only
      rw [hskip]
      refine (congrArg _ (scanNumber_append d hrest)).trans ?_
      rw [Option.map_some, intOf_of_lt h]
      rfl
    | ulong =>
      dsimp only
      rw [hskip]
      refine (congrArg _ (scanNumber_append d hrest)).trans ?_
      rw [Option.map_some, ulongOf_of_lt h]
      rfl

/-- What a conversion can store. -/
def InRange : Conv → Value → Prop
  | .str, .str s => s ≠ []
  | .int, .num n => n < 2 ^ 31
  | .ulong, .num n => n < 2 ^ 64
  | _, _ => False

theorem intOf_lt (minus : Bool) (n : Nat) : intOf minus n < 2 ^ 31 :=
  Int.bmod_lt (by decide)

theorem ulongOf_lt (minus : Bool) (n : Nat) : ulongOf minus n < 2 ^ 64 := by
  unfold ulongOf
  split
  · decide
  · split
    · exact Int.emod_lt_of_pos _ (by decide)
    · omega

theorem inRange_of_scanOne {c : Conv} {s rest : List UInt8} {v : Value}
    (h : scanOne c s = some (v, rest)) : InRange c v := by
  cases c with
  | str =>
    obtain ⟨p, hp, heq⟩ := Option.map_eq_some_iff.mp h
    unfold scanWord at hp
    rw [Option.ite_none_left_eq_some] at hp
    obtain ⟨hne, hp⟩ := hp
    cases hp
    cases heq
    exact hne
  | int =>
    obtain ⟨p, -, heq⟩ := Option.map_eq_some_iff.mp h
    cases heq
    exact intOf_lt ..
  | ulong =>
    obtain ⟨p, -, heq⟩ := Option.map_eq_some_iff.mp h
    cases heq
    exact ulongOf_lt ..

theorem Matches.fits {c : Conv} {a : Arg} (hm : Matches c a) (h : InRange c a.value) :
    Fits c a := by
  cases a with
  | word w =>
    cases c with
    | str => exact h
    | int => exact hm
    | ulong => exact hm
  | number d =>
    cases c with
    | str => exact hm
    | int => exact Int.ofNat_lt.mp h
    | ulong => exact Int.ofNat_lt.mp h

/-! ### Whole lines -/

theorem scan_blank (c : Conv) (cs : List Conv) (s : List UInt8) :
    scan (c :: cs) (32 :: s) = scan (c :: cs) s := by
  have hskip : skipSpaces (32 :: s) = skipSpaces s := List.dropWhile_cons_of_pos (by decide)
  rw [scan, scan]
  unfold scanOne
  rw [hskip]

theorem print_cons (a : Arg) (args : List Arg) (rest : List UInt8) :
    print (a :: args) ++ rest = 32 :: (a.text ++ (print args ++ rest)) := by
  simp [print]

theorem zero_not_mem_print (args : List Arg) : (0 : UInt8) ∉ print args := by
  intro h
  obtain ⟨a, -, hmem⟩ := List.mem_flatMap.mp h
  obtain h32 | htext := List.mem_cons.mp hmem
  · cases h32
  · exact a.noNul htext

theorem delimited_print (args : List Arg) {rest : List UInt8} (h : Delimited rest) :
    Delimited (print args ++ rest) := by
  cases args with
  | nil => exact h
  | cons a args =>
    intro b hb
    rw [print_cons, List.head?_cons, Option.mem_some_iff] at hb
    rw [← hb]
    decide

theorem scan_print {cs : List Conv} {args : List Arg} {rest : List UInt8}
    (h : List.Forall₂ Fits cs args) (hrest : Delimited rest) :
    scan cs (print args ++ rest) = args.map Arg.value := by
  induction h with
  | nil => rfl
  | cons ha htail ih =>
    rw [print_cons, scan, scanOne_print ha (delimited_print _ hrest), List.map_cons]
    dsimp only
    rw [ih]

theorem fits_of_scan {cs : List Conv} {args : List Arg} (hm : List.Forall₂ Matches cs args)
    {s : List UInt8} (h : scan cs s = args.map Arg.value) : List.Forall₂ Fits cs args := by
  induction hm generalizing s with
  | nil => exact .nil
  | cons ha htail ih =>
    rw [scan, List.map_cons] at h
    split at h
    · cases h
    · rename_i v rest hone
      obtain ⟨rfl, hrest⟩ := List.cons.inj h
      exact .cons (ha.fits (inRange_of_scanOne hone)) (ih hrest)

/-- **Reading a line back.** -/
theorem scan_print_iff {cs : List Conv} {args : List Arg} (hm : List.Forall₂ Matches cs args)
    {rest : List UInt8} (hrest : Delimited rest) :
    scan cs (print args ++ rest) = args.map Arg.value ↔ List.Forall₂ Fits cs args :=
  ⟨fits_of_scan hm, fun h => scan_print h hrest⟩

end Scan
