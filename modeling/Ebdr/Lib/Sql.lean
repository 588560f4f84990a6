import Ebdr.Lib.Scan
import Mathlib.Data.List.Count
import Mathlib.Data.List.DropRight

/-!
# Literals in SQL statements

A statement that `sprintf` makes has fixed texts, decimal numbers and strings in single quotes. Read as
SQL, a quote ends a string unless it is doubled, and a backslash starts an escape, except before `%`
and `_`; a number goes into an `INT` column, a string into a `CHAR` column, which has one byte for a
character and gives a value back without the blanks at its end. `readRow_render_iff` says when the row
holds the values that were printed: the strings are plain and the numbers and strings fit their
columns.
-/

namespace Sql

open Scan (isDigit number scanNumber scanSign)

/-- `'`. -/
def quote : UInt8 := 39

/-- `\`. -/
def backslash : UInt8 := 92

inductive Value where
  | num (n : Int)
  | str (s : List UInt8)
  deriving DecidableEq, Repr

/-- A piece of a statement, with its value. -/
inductive Item where
  | text (t : List UInt8)
  | num (n : Int)
  | str (s : List UInt8)
  deriving DecidableEq, Repr

/-- A piece of a statement to be read. -/
inductive Shape where
  | text (t : List UInt8)
  | num
  | str
  deriving DecidableEq, Repr

namespace Item

def shape : Item → Shape
  | text t => .text t
  | num _ => .num
  | str _ => .str

def value? : Item → Option Value
  | text _ => none
  | num n => some (.num n)
  | str s => some (.str s)

end Item

/-- The values in a statement. -/
def values (items : List Item) : List Value := items.filterMap Item.value?

/-! ### Printing -/

def digits (n : Nat) : List UInt8 := (Nat.toDigits 10 n).map fun c => UInt8.ofNat c.toNat

/-- `%d` and `%lu`. -/
def decimal (n : Int) : List UInt8 := if n < 0 then 45 :: digits n.natAbs else digits n.natAbs

/-- The text of a statement. -/
def render : List Item → List UInt8
  | [] => []
  | .text t :: items => t ++ render items
  | .num n :: items => decimal n ++ render items
  | .str s :: items => quote :: (s ++ quote :: render items)

/-! ### Reading -/

/-- What a backslash and the byte behind it stand for. -/
def unescape (c : UInt8) : List UInt8 :=
  if c = 37 ∨ c = 95 then [backslash, c]
  else if c = 48 then [0]
  else if c = 98 then [8]
  else if c = 110 then [10]
  else if c = 114 then [13]
  else if c = 116 then [9]
  else if c = 90 then [26]
  else [c]

/-- A string up to its closing quote, with the rest of the statement. -/
def readString : List UInt8 → Option (List UInt8 × List UInt8)
  | [] => none
  | b :: s =>
    if b = quote then
      match s with
      | [] => some ([], [])
      | c :: s =>
        if c = quote then (readString s).map fun r => (quote :: r.1, r.2) else some ([], c :: s)
    else if b = backslash then
      match s with
      | [] => none
      | c :: s => (readString s).map fun r => (unescape c ++ r.1, r.2)
    else (readString s).map fun r => (b :: r.1, r.2)

def readQuoted : List UInt8 → Option (List UInt8 × List UInt8)
  | [] => none
  | b :: s => if b = quote then readString s else none

/-- The range of an `INT` column. -/
def InColumn (n : Int) : Prop := -2 ^ 31 ≤ n ∧ n < 2 ^ 31

instance (n : Int) : Decidable (InColumn n) := inferInstanceAs (Decidable (_ ∧ _))

/-- A number that its column can hold. -/
def readNum (s : List UInt8) : Option (Int × List UInt8) :=
  (scanNumber s).bind fun r =>
    let n : Int := if r.1.1 = true then -(r.1.2 : Int) else r.1.2
    if InColumn n then some (n, r.2) else none

/-- The values of a statement of a given shape. -/
def read : List Shape → List UInt8 → Option (List Value)
  | [], s => if s = [] then some [] else none
  | .text t :: shapes, s => if t <+: s then read shapes (s.drop t.length) else none
  | .num :: shapes, s =>
    (readNum s).bind fun r => (read shapes r.2).map fun vs => .num r.1 :: vs
  | .str :: shapes, s =>
    (readQuoted s).bind fun r => (read shapes r.2).map fun vs => .str r.1 :: vs

/-- What a `CHAR(n)` column gives back. A value too long for it is an error in the strict mode, and cut
in the other; blanks at the end do not count. -/
def charColumn (strict : Bool) (n : Nat) (s : List UInt8) : Option (List UInt8) :=
  if (s.rdropWhile (· == 32)).length ≤ n then some (s.rdropWhile (· == 32))
  else if strict = true then none
  else some ((s.take n).rdropWhile (· == 32))

def Value.column (strict : Bool) (n : Nat) : Value → Option Value
  | num k => some (num k)
  | str s => (charColumn strict n s).map str

/-- The values that the columns have after a statement, of which those of strings are `CHAR(n)`. -/
def readRow (strict : Bool) (n : Nat) (shapes : List Shape) (s : List UInt8) : Option (List Value) :=
  (read shapes s).bind fun vs => vs.mapM (Value.column strict n)

/-! ### Decimal numbers -/

theorem toNat_digit {c : Char} (h : c.isDigit = true) :
    (UInt8.ofNat c.toNat).toNat = c.toNat ∧ 48 ≤ c.toNat ∧ c.toNat ≤ 57 := by
  have hrange : 48 ≤ c.toNat ∧ c.toNat ≤ 57 := by
    simp only [Char.isDigit, Bool.and_eq_true, decide_eq_true_eq, ge_iff_le,
      UInt32.le_iff_toNat_le] at h
    exact h
  refine ⟨?_, hrange⟩
  rw [UInt8.toNat_ofNat']
  omega

theorem isDigit_of_mem_digits {n : Nat} {b : UInt8} (h : b ∈ digits n) : isDigit b = true := by
  obtain ⟨c, hc, rfl⟩ := List.mem_map.mp h
  obtain ⟨heq, hrange⟩ := toNat_digit (Nat.isDigit_of_mem_toDigits (by decide) (by decide) hc)
  unfold isDigit
  rw [heq]
  exact decide_eq_true hrange

theorem digits_ne_nil (n : Nat) : digits n ≠ [] := by
  intro h
  exact Nat.toDigits_ne_nil (List.map_eq_nil_iff.mp h)

theorem length_digits_le_iff {n k : Nat} (h : 0 < k) : (digits n).length ≤ k ↔ n < 10 ^ k := by
  unfold digits
  rw [List.length_map]
  exact Nat.length_toDigits_le_iff (by decide) h

theorem number_digits (n : Nat) : number (digits n) = n := by
  have hfold : ∀ (cs : List Char), (∀ c ∈ cs, c.isDigit = true) → ∀ init,
      (cs.map fun c => UInt8.ofNat c.toNat).foldl (fun n d => 10 * n + (d.toNat - 48)) init =
        Nat.ofDigitChars 10 cs init := by
    intro cs
    induction cs with
    | nil => exact fun _ init => Nat.ofDigitChars_nil.symm
    | cons c cs ih =>
      intro hcs init
      rw [List.map_cons, List.foldl_cons, ih (fun c' hc' => hcs c' (List.mem_cons_of_mem c hc')),
        Nat.ofDigitChars_cons, (toNat_digit (hcs c (List.mem_cons_self ..))).1]
      rfl
  unfold number digits
  rw [hfold _ fun c hc => Nat.isDigit_of_mem_toDigits (by decide) (by decide) hc]
  exact Nat.ofDigitChars_ten_toDigits

theorem number_lt {ds : List UInt8} (h : ∀ b ∈ ds, isDigit b = true) :
    number ds < 10 ^ ds.length := by
  have hfold : ∀ ds : List UInt8, (∀ b ∈ ds, isDigit b = true) → ∀ init,
      ds.foldl (fun n d => 10 * n + (d.toNat - 48)) init < (init + 1) * 10 ^ ds.length := by
    intro ds
    induction ds with
    | nil => intro _ init; simp
    | cons d ds ih =>
      intro hds init
      have hd := of_decide_eq_true (hds d (List.mem_cons_self ..))
      have hrest := ih (fun b hb => hds b (List.mem_cons_of_mem d hb)) (10 * init + (d.toNat - 48))
      rw [List.foldl_cons, List.length_cons, Nat.pow_succ', ← Nat.mul_assoc]
      exact lt_of_lt_of_le hrest (Nat.mul_le_mul_right _ (by omega))
  have := hfold ds h 0
  rwa [Nat.zero_add, Nat.one_mul] at this

theorem readNum_decimal {n : Int} {rest : List UInt8} (hn : InColumn n)
    (hrest : ∀ b ∈ rest.head?, isDigit b = false) : readNum (decimal n ++ rest) = some (n, rest) := by
  have htake : (digits n.natAbs ++ rest).takeWhile isDigit = digits n.natAbs :=
    Scan.takeWhile_append (fun b hb => isDigit_of_mem_digits hb) hrest
  have hscan : scanNumber (decimal n ++ rest) = some ((decide (n < 0), n.natAbs), rest) := by
    have hsign : scanSign (decimal n ++ rest) = (decide (n < 0), digits n.natAbs ++ rest) := by
      unfold decimal
      by_cases hneg : n < 0
      · rw [if_pos hneg, decide_eq_true hneg]
        rfl
      · rw [if_neg hneg, decide_eq_false hneg]
        apply Scan.scanSign_of_isDigit
        obtain ⟨d, ds, heq⟩ := List.exists_cons_of_ne_nil (digits_ne_nil n.natAbs)
        intro b hb
        rw [heq, List.cons_append, List.head?_cons, Option.mem_some_iff] at hb
        apply isDigit_of_mem_digits (n := n.natAbs)
        rw [heq, ← hb]
        exact List.mem_cons_self ..
    unfold scanNumber
    rw [hsign]
    dsimp only
    rw [htake, if_neg (digits_ne_nil _), List.drop_left, number_digits]
  have hval : (if decide (n < 0) = true then -(n.natAbs : Int) else n.natAbs) = n := by
    by_cases hneg : n < 0
    · rw [if_pos (decide_eq_true hneg)]
      omega
    · rw [if_neg (by rwa [decide_eq_true_iff])]
      omega
  unfold readNum
  rw [hscan, Option.bind_some]
  dsimp only
  rw [hval, if_pos hn]

theorem scanSign_spec (t : List UInt8) : ∃ sign, t = sign ++ (scanSign t).2 ∧ (32 : UInt8) ∉ sign ∧
    ((scanSign t).1 = true → sign.length = 1) := by
  cases t with
  | nil => exact ⟨[], rfl, List.not_mem_nil, by simp [scanSign]⟩
  | cons b t =>
    rw [scanSign]
    by_cases h45 : b = 45
    · rw [if_pos h45, h45]
      exact ⟨[45], rfl, by decide, fun _ => rfl⟩
    · rw [if_neg h45]
      by_cases h43 : b = 43
      · rw [if_pos h43, h43]
        exact ⟨[43], rfl, by decide, by simp⟩
      · rw [if_neg h43]
        exact ⟨[], rfl, List.not_mem_nil, by simp⟩

theorem scanNumber_spec {t rest : List UInt8} {minus : Bool} {k : Nat}
    (h : scanNumber t = some ((minus, k), rest)) :
    ∃ sign ds, t = sign ++ (ds ++ rest) ∧ (32 : UInt8) ∉ sign ∧ (minus = true → sign.length = 1) ∧
      ds ≠ [] ∧ (∀ b ∈ ds, isDigit b = true) ∧ k = number ds := by
  obtain ⟨sign, ht, hblank, hminus⟩ := scanSign_spec t
  unfold scanNumber at h
  generalize scanSign t = r at *
  obtain ⟨neg, s⟩ := r
  dsimp only at *
  rw [Option.ite_none_left_eq_some] at h
  obtain ⟨hne, heq⟩ := h
  obtain ⟨hpair, rfl⟩ := Prod.mk.inj (Option.some.inj heq)
  obtain ⟨rfl, rfl⟩ := Prod.mk.inj hpair
  have hsplit := List.takeWhile_append_dropWhile (p := isDigit) (l := s)
  have hdrop : s.drop (s.takeWhile isDigit).length = s.dropWhile isDigit := by
    have hleft : ∀ a b : List UInt8, a ++ b = s → s.drop a.length = b := by
      rintro a b rfl
      exact List.drop_left
    exact hleft _ _ hsplit
  refine ⟨sign, s.takeWhile isDigit, ?_, hblank, hminus, hne, fun b hb => List.mem_takeWhile_imp hb,
    rfl⟩
  rw [hdrop, hsplit]
  exact ht

theorem readNum_spec {t rest : List UInt8} {n : Int} (h : readNum t = some (n, rest)) :
    InColumn n ∧ ∃ u, t = u ++ rest ∧ (decimal n).length ≤ u.length ∧ (32 : UInt8) ∉ u := by
  obtain ⟨⟨⟨minus, k⟩, rest'⟩, hscan, hval⟩ := Option.bind_eq_some_iff.mp h
  obtain ⟨hcol, heq⟩ := Option.ite_none_right_eq_some.mp hval
  obtain ⟨rfl, rfl⟩ := Prod.mk.inj (Option.some.inj heq)
  obtain ⟨sign, ds, rfl, hblank, hminus, hne, hds, rfl⟩ := scanNumber_spec hscan
  have hlen : (digits (number ds)).length ≤ ds.length :=
    (length_digits_le_iff (List.length_pos_iff.mpr hne)).mpr (number_lt hds)
  refine ⟨hcol, sign ++ ds, (List.append_assoc ..).symm, ?_, ?_⟩
  · rw [List.length_append]
    unfold decimal
    dsimp only
    cases minus with
    | false =>
      rw [if_neg Bool.false_ne_true, if_neg (by omega), Int.natAbs_natCast]
      omega
    | true =>
      have hsign := hminus rfl
      rw [if_pos rfl, Int.natAbs_neg, Int.natAbs_natCast]
      split
      · rw [List.length_cons]
        omega
      · omega
  · rw [List.mem_append, not_or]
    refine ⟨hblank, fun hmem => ?_⟩
    exact absurd (hds 32 hmem) (by decide)

/-! ### Strings -/

/-- A string without a quote, and without a backslash except before `%` and `_`. -/
def Plain : List UInt8 → Prop
  | [] => True
  | b :: s => b ≠ quote ∧ (b = backslash → s.head? = some 37 ∨ s.head? = some 95) ∧ Plain s

theorem Plain.of_append {s x : List UInt8} (h : Plain (s ++ x))
    (hx : x.head? ≠ some 37 ∧ x.head? ≠ some 95) : Plain s := by
  induction s with
  | nil => trivial
  | cons b s ih =>
    obtain ⟨hq, hb, hrest⟩ := h
    refine ⟨hq, fun heq => ?_, ih hrest⟩
    cases s with
    | nil => exact absurd (hb heq) (not_or.mpr hx)
    | cons c s => exact hb heq

theorem Plain.blank {s : List UInt8} (h : Plain s) : Plain (32 :: s) :=
  ⟨by decide, fun heq => absurd heq (by decide), h⟩

theorem readString_doubled (s : List UInt8) :
    readString (quote :: quote :: s) = (readString s).map fun r => (quote :: r.1, r.2) := by
  rw [readString, if_pos rfl, if_pos rfl]

theorem readString_end {s : List UInt8} (h : s.head? ≠ some quote) :
    readString (quote :: s) = some ([], s) := by
  cases s with
  | nil => rw [readString, if_pos rfl]
  | cons c s =>
    rw [readString, if_pos rfl, if_neg]
    rintro rfl
    exact h rfl

theorem readString_escape (c : UInt8) (s : List UInt8) :
    readString (backslash :: c :: s) = (readString s).map fun r => (unescape c ++ r.1, r.2) := by
  rw [readString, if_neg (by decide), if_pos rfl]

theorem readString_byte {b : UInt8} (hq : b ≠ quote) (hb : b ≠ backslash) (s : List UInt8) :
    readString (b :: s) = (readString s).map fun r => (b :: r.1, r.2) := by
  rw [readString.eq_def]
  dsimp only
  rw [if_neg hq, if_neg hb]

theorem unescape_eq_self {c : UInt8} (h : c = 37 ∨ c = 95) : unescape c = [backslash, c] := if_pos h

theorem length_unescape {c : UInt8} (h : ¬ (c = 37 ∨ c = 95)) : (unescape c).length = 1 := by
  unfold unescape
  rw [if_neg h]
  repeat' split
  all_goals rfl

/-- A blank stands for itself, and nothing else stands for a blank. -/
theorem count_unescape (c : UInt8) : (unescape c).count 32 = (backslash :: [c]).count 32 := by
  unfold unescape
  repeat' split
  all_goals simp_all [backslash]

theorem readString_plain {s rest : List UInt8} (hs : Plain s) (hrest : rest.head? ≠ some quote) :
    readString (s ++ quote :: rest) = some (s, rest) := by
  induction s using readString.induct with
  | case1 => exact readString_end hrest
  | case2 => exact absurd rfl hs.1
  | case3 s ih => exact absurd rfl hs.1
  | case4 c s hc => exact absurd rfl hs.1
  | case5 hne =>
    rcases hs.2.1 rfl with h | h
    · cases h
    · cases h
  | case6 c s hne ih =>
    obtain ⟨-, hnext, hc⟩ := hs
    have hlike : c = 37 ∨ c = 95 := by simpa using hnext rfl
    rw [List.cons_append, List.cons_append, readString_escape, ih hc.2.2, unescape_eq_self hlike]
    rfl
  | case7 c s hq hb ih =>
    rw [List.cons_append, readString_byte hq hb, ih hs.2.2]
    rfl

/-- Reading a string takes at least as many bytes as it has, more if it is not plain, and keeps its
blanks. -/
theorem readString_spec {t v rest : List UInt8} (h : readString t = some (v, rest)) :
    ∃ u, t = u ++ quote :: rest ∧ v.length ≤ u.length ∧ (v.length = u.length → Plain v) ∧
      u.count 32 = v.count 32 := by
  induction t using readString.induct generalizing v with
  | case1 => cases h
  | case2 =>
    rw [readString_end (by decide)] at h
    obtain ⟨rfl, rfl⟩ := Prod.mk.inj (Option.some.inj h)
    exact ⟨[], rfl, le_refl _, fun _ => trivial, rfl⟩
  | case3 s ih =>
    rw [readString_doubled] at h
    obtain ⟨⟨v', rest'⟩, hs, heq⟩ := Option.map_eq_some_iff.mp h
    obtain ⟨rfl, rfl⟩ := Prod.mk.inj heq
    obtain ⟨u, rfl, hlen, -, hcount⟩ := ih hs
    refine ⟨quote :: quote :: u, rfl, ?_, ?_, ?_⟩
    · simp only [List.length_cons]
      omega
    · intro hsame
      simp only [List.length_cons] at hsame
      omega
    · simpa [quote] using hcount
  | case4 c s hc =>
    have hhead : (c :: s).head? ≠ some quote := by
      rw [List.head?_cons]
      exact fun heq => hc (Option.some.inj heq)
    rw [readString_end hhead] at h
    obtain ⟨rfl, rfl⟩ := Prod.mk.inj (Option.some.inj h)
    exact ⟨[], rfl, le_refl _, fun _ => trivial, rfl⟩
  | case5 hne =>
    rw [readString, if_neg hne, if_pos rfl] at h
    cases h
  | case6 c s hne ih =>
    rw [readString_escape] at h
    obtain ⟨⟨v', rest'⟩, hs, heq⟩ := Option.map_eq_some_iff.mp h
    obtain ⟨rfl, rfl⟩ := Prod.mk.inj heq
    obtain ⟨u, rfl, hlen, hplain, hcount⟩ := ih hs
    refine ⟨backslash :: c :: u, rfl, ?_, ?_, ?_⟩
    · by_cases hlike : c = 37 ∨ c = 95
      · rw [unescape_eq_self hlike]
        simp only [List.length_append, List.length_cons, List.length_nil]
        omega
      · simp only [List.length_append, length_unescape hlike, List.length_cons]
        omega
    · intro hsame
      by_cases hlike : c = 37 ∨ c = 95
      · rw [unescape_eq_self hlike] at hsame ⊢
        simp only [List.length_append, List.length_cons, List.length_nil] at hsame
        have hc : c ≠ quote ∧ c ≠ backslash := by
          rcases hlike with rfl | rfl <;> decide
        refine ⟨by decide, fun _ => ?_, hc.1, fun heq => absurd heq hc.2, hplain (by omega)⟩
        simpa using hlike
      · simp only [List.length_append, length_unescape hlike, List.length_cons] at hsame
        omega
    · have hc := count_unescape c
      rw [List.count_append, hc, ← hcount]
      simp only [List.count_cons, List.count_nil]
      omega
  | case7 c s hq hb ih =>
    rw [readString_byte hq hb] at h
    obtain ⟨⟨v', rest'⟩, hs, heq⟩ := Option.map_eq_some_iff.mp h
    obtain ⟨rfl, rfl⟩ := Prod.mk.inj heq
    obtain ⟨u, rfl, hlen, hplain, hcount⟩ := ih hs
    refine ⟨c :: u, rfl, ?_, fun hsame => ?_, ?_⟩
    · simpa using hlen
    · exact ⟨hq, fun heq => absurd heq hb, hplain (by simpa using hsame)⟩
    · rw [List.count_cons, List.count_cons, hcount]

/-! ### Whole statements -/

/-- What follows a number is no digit, and what follows a string is no quote. -/
def Apart : List Item → Prop
  | [] => True
  | .text _ :: items => Apart items
  | .num _ :: items => (∀ b ∈ (render items).head?, isDigit b = false) ∧ Apart items
  | .str _ :: items => (render items).head? ≠ some quote ∧ Apart items

/-- The strings are plain and the numbers fit their columns. -/
def Readable (items : List Item) : Prop :=
  (∀ s, .str s ∈ items → Plain s) ∧ ∀ n, .num n ∈ items → InColumn n

theorem Readable.tail {item : Item} {items : List Item} (h : Readable (item :: items)) :
    Readable items :=
  ⟨fun s hs => h.1 s (List.mem_cons_of_mem _ hs), fun n hn => h.2 n (List.mem_cons_of_mem _ hn)⟩

theorem read_render {items : List Item} (hapart : Apart items) (h : Readable items) :
    read (items.map Item.shape) (render items) = some (values items) := by
  induction items with
  | nil => rfl
  | cons item items ih =>
    cases item with
    | text t =>
      rw [List.map_cons, Item.shape, render, read, if_pos (List.prefix_append ..), List.drop_left]
      exact ih hapart h.tail
    | num n =>
      have hn := readNum_decimal (h.2 n (List.mem_cons_self ..)) hapart.1
      rw [List.map_cons, Item.shape, render, read, hn, Option.bind_some, ih hapart.2 h.tail]
      rfl
    | str s =>
      have hs := readString_plain (h.1 s (List.mem_cons_self ..)) hapart.1
      rw [List.map_cons, Item.shape, render, read, readQuoted, if_pos rfl, hs, Option.bind_some,
        ih hapart.2 h.tail]
      rfl

theorem blank_not_mem_decimal (n : Int) : (32 : UInt8) ∉ decimal n := by
  have hdigits : ∀ k, (32 : UInt8) ∉ digits k :=
    fun k h => absurd (isDigit_of_mem_digits h) (by decide)
  unfold decimal
  split
  · rw [List.mem_cons, not_or]
    exact ⟨by decide, hdigits _⟩
  · exact hdigits _

theorem readQuoted_some {t : List UInt8} {r : List UInt8 × List UInt8} (h : readQuoted t = some r) :
    ∃ s, t = quote :: s ∧ readString s = some r := by
  cases t with
  | nil => cases h
  | cons b s =>
    obtain ⟨rfl, hread⟩ := Option.ite_none_right_eq_some.mp h
    exact ⟨s, rfl, hread⟩

/-- Reading the values of some pieces from a text: the text is at least as long as the pieces, longer
if one of their strings is not plain, and has as many blanks. -/
theorem read_spec {items : List Item} {t : List UInt8}
    (h : read (items.map Item.shape) t = some (values items)) :
    (render items).length ≤ t.length ∧
      ((render items).length = t.length → ∀ s, .str s ∈ items → Plain s) ∧
      (∀ n, .num n ∈ items → InColumn n) ∧ t.count 32 = (render items).count 32 := by
  induction items generalizing t with
  | nil =>
    obtain ⟨rfl, -⟩ := Option.ite_none_right_eq_some.mp h
    exact ⟨le_refl _, nofun, nofun, rfl⟩
  | cons item items ih =>
    cases item with
    | text u =>
      obtain ⟨⟨rest, rfl⟩, htail⟩ := Option.ite_none_right_eq_some.mp h
      rw [List.drop_left] at htail
      obtain ⟨hlen, hplain, hcol, hcount⟩ := ih htail
      rw [render]
      refine ⟨?_, fun hsame s hs => ?_, fun n hn => ?_, ?_⟩
      · simpa using hlen
      · exact hplain (by simpa using hsame) s ((List.mem_cons.mp hs).resolve_left nofun)
      · exact hcol n ((List.mem_cons.mp hn).resolve_left nofun)
      · rw [List.count_append, List.count_append, hcount]
    | num n =>
      obtain ⟨⟨n', rest⟩, hnum, hmap⟩ := Option.bind_eq_some_iff.mp h
      obtain ⟨vs, htail, heq⟩ := Option.map_eq_some_iff.mp hmap
      obtain ⟨hn', rfl⟩ := List.cons.inj heq
      obtain rfl : n' = n := Value.num.inj hn'
      obtain ⟨hin, u, rfl, hlen', hblank⟩ := readNum_spec hnum
      obtain ⟨hlen, hplain, hcol, hcount⟩ := ih (t := rest) htail
      rw [render]
      refine ⟨?_, fun hsame s hs => ?_, fun m hm => ?_, ?_⟩
      · simp only [List.length_append]
        omega
      · simp only [List.length_append] at hsame
        exact hplain (by omega) s ((List.mem_cons.mp hs).resolve_left nofun)
      · rcases List.mem_cons.mp hm with heq' | hm
        · rw [Item.num.inj heq']
          exact hin
        · exact hcol m hm
      · rw [List.count_append, List.count_append, hcount, List.count_eq_zero.mpr hblank,
          List.count_eq_zero.mpr (blank_not_mem_decimal n')]
    | str s =>
      obtain ⟨⟨v, rest⟩, hstr, hmap⟩ := Option.bind_eq_some_iff.mp h
      obtain ⟨vs, htail, heq⟩ := Option.map_eq_some_iff.mp hmap
      obtain ⟨hv, rfl⟩ := List.cons.inj heq
      obtain rfl : v = s := Value.str.inj hv
      obtain ⟨t', rfl, hread⟩ := readQuoted_some hstr
      obtain ⟨u, rfl, hlen', hplain', hcount'⟩ := readString_spec hread
      obtain ⟨hlen, hplain, hcol, hcount⟩ := ih (t := rest) htail
      rw [render]
      refine ⟨?_, fun hsame s hs => ?_, fun n hn => ?_, ?_⟩
      · simp only [List.length_cons, List.length_append]
        omega
      · simp only [List.length_cons, List.length_append] at hsame
        rcases List.mem_cons.mp hs with heq' | hs
        · rw [Item.str.inj heq']
          exact hplain' (by omega)
        · exact hplain (by omega) s hs
      · exact hcol n ((List.mem_cons.mp hn).resolve_left nofun)
      · rw [List.count_cons, List.count_cons, List.count_append, List.count_append,
          List.count_cons, List.count_cons, hcount, hcount']

/-- **When a statement carries its values.** -/
theorem read_render_iff {items : List Item} (hapart : Apart items) :
    read (items.map Item.shape) (render items) = some (values items) ↔ Readable items := by
  constructor
  · intro h
    obtain ⟨-, hplain, hcol, -⟩ := read_spec h
    exact ⟨hplain rfl, hcol⟩
  · exact read_render hapart

/-! ### Columns -/

section

variable {strict : Bool} {n : Nat}

/-- A string that a `CHAR(n)` column holds as it is. -/
def InCharColumn (n : Nat) (s : List UInt8) : Prop := s.length ≤ n ∧ s.getLast? ≠ some 32

instance (n : Nat) (s : List UInt8) : Decidable (InCharColumn n s) :=
  inferInstanceAs (Decidable (_ ∧ _))

theorem charColumn_prefix {s t : List UInt8} (h : charColumn strict n s = some t) : t <+: s := by
  unfold charColumn at h
  split at h
  · rw [← Option.some.inj h]
    exact List.rdropWhile_prefix _ _
  · split at h
    · cases h
    · rw [← Option.some.inj h]
      exact (List.rdropWhile_prefix _ _).trans (List.take_prefix ..)

theorem rdropWhile_blank_eq_self_iff {s : List UInt8} :
    s.rdropWhile (· == 32) = s ↔ s.getLast? ≠ some 32 := by
  rw [List.rdropWhile_eq_self_iff]
  constructor
  · intro h hlast
    have hne : s ≠ [] := by
      rintro rfl
      cases hlast
    rw [List.getLast?_eq_some_getLast hne] at hlast
    exact h hne (beq_iff_eq.mpr (Option.some.inj hlast))
  · intro h hne hblank
    rw [List.getLast?_eq_some_getLast hne, beq_iff_eq.mp hblank] at h
    exact h rfl

theorem getLast_of_charColumn {s t : List UInt8} (h : charColumn strict n s = some t) :
    t.getLast? ≠ some 32 := by
  unfold charColumn at h
  split at h
  · rw [← Option.some.inj h]
    exact rdropWhile_blank_eq_self_iff.mp (List.rdropWhile_idempotent _ _)
  · split at h
    · cases h
    · rw [← Option.some.inj h]
      exact rdropWhile_blank_eq_self_iff.mp (List.rdropWhile_idempotent _ _)

theorem charColumn_eq_self_iff {s : List UInt8} :
    charColumn strict n s = some s ↔ InCharColumn n s := by
  unfold charColumn InCharColumn
  constructor
  · intro h
    split at h
    · rename_i hlen
      have hself := Option.some.inj h
      rw [hself] at hlen
      exact ⟨hlen, rdropWhile_blank_eq_self_iff.mp hself⟩
    · rename_i hlen
      split at h
      · cases h
      · -- a value that is cut is not the one passed
        have hcut := congrArg List.length (Option.some.inj h)
        have hle := (List.rdropWhile_prefix (· == 32) (s.take n)).length_le
        have hdrop := (List.rdropWhile_prefix (· == 32) s).length_le
        rw [List.length_take] at hle
        omega
  · rintro ⟨hlen, hlast⟩
    have hself := rdropWhile_blank_eq_self_iff.mpr hlast
    rw [hself, if_pos hlen]

/-- The columns give the second piece back where the first was read. -/
def Item.Gives (strict : Bool) (n : Nat) : Item → Item → Prop
  | .text t, .text u => t = u
  | .num k, .num m => k = m
  | .str s, .str u => charColumn strict n s = some u
  | _, _ => False

@[simp] theorem Item.gives_text {item : Item} {t : List UInt8} :
    item.Gives strict n (.text t) ↔ item = .text t := by
  cases item <;> simp [Item.Gives]

@[simp] theorem Item.gives_num {item : Item} {k : Int} :
    item.Gives strict n (.num k) ↔ item = .num k := by
  cases item <;> simp [Item.Gives]

@[simp] theorem Item.gives_str {item : Item} {u : List UInt8} :
    item.Gives strict n (.str u) ↔ ∃ s, item = .str s ∧ charColumn strict n s = some u := by
  cases item <;> simp [Item.Gives]

theorem mapM_column_cons {v w : Value} {vs ws : List Value}
    (h : (v :: vs).mapM (Value.column strict n) = some (w :: ws)) :
    v.column strict n = some w ∧ vs.mapM (Value.column strict n) = some ws := by
  rw [List.mapM_cons] at h
  obtain ⟨w', hw, hrest⟩ := Option.bind_eq_some_iff.mp h
  obtain ⟨ws', hws, heq⟩ := Option.bind_eq_some_iff.mp hrest
  obtain ⟨rfl, rfl⟩ := List.cons.inj (Option.some.inj heq)
  exact ⟨hw, hws⟩

theorem exists_gives {items : List Item} {t : List UInt8}
    (h : readRow strict n (items.map Item.shape) t = some (values items)) :
    ∃ items', List.Forall₂ (Item.Gives strict n) items' items ∧
      read (items'.map Item.shape) t = some (values items') := by
  induction items generalizing t with
  | nil =>
    obtain ⟨vs, hread, -⟩ := Option.bind_eq_some_iff.mp h
    obtain ⟨rfl, -⟩ := Option.ite_none_right_eq_some.mp hread
    exact ⟨[], .nil, rfl⟩
  | cons item items ih =>
    obtain ⟨vs, hread, hcol⟩ := Option.bind_eq_some_iff.mp h
    cases item with
    | text u =>
      obtain ⟨hpre, htail⟩ := Option.ite_none_right_eq_some.mp hread
      obtain ⟨items', hgives, hitems⟩ := ih (Option.bind_eq_some_iff.mpr ⟨vs, htail, hcol⟩)
      exact ⟨.text u :: items', .cons rfl hgives, (if_pos hpre).trans hitems⟩
    | num k =>
      obtain ⟨r, hnum, hmap⟩ := Option.bind_eq_some_iff.mp hread
      obtain ⟨vs', htail, rfl⟩ := Option.map_eq_some_iff.mp hmap
      obtain ⟨hk, hrest⟩ := mapM_column_cons hcol
      obtain ⟨items', hgives, hitems⟩ := ih (Option.bind_eq_some_iff.mpr ⟨vs', htail, hrest⟩)
      refine ⟨.num r.1 :: items', .cons (Value.num.inj (Option.some.inj hk)) hgives, ?_⟩
      rw [List.map_cons, Item.shape, read, hnum, Option.bind_some, hitems]
      rfl
    | str s =>
      obtain ⟨r, hstr, hmap⟩ := Option.bind_eq_some_iff.mp hread
      obtain ⟨vs', htail, rfl⟩ := Option.map_eq_some_iff.mp hmap
      obtain ⟨hs, hrest⟩ := mapM_column_cons hcol
      obtain ⟨u, hu, heq⟩ := Option.map_eq_some_iff.mp hs
      obtain ⟨items', hgives, hitems⟩ := ih (Option.bind_eq_some_iff.mpr ⟨vs', htail, hrest⟩)
      refine ⟨.str r.1 :: items', .cons (hu.trans (congrArg some (Value.str.inj heq))) hgives, ?_⟩
      rw [List.map_cons, Item.shape, read, hstr, Option.bind_some, hitems]
      rfl

/-- Columns make no statement longer, and one that keeps its length they leave as it is. -/
theorem length_render_of_gives {items' items : List Item}
    (h : List.Forall₂ (Item.Gives strict n) items' items) :
    (render items).length ≤ (render items').length ∧
      ((render items').length ≤ (render items).length → items' = items) := by
  induction h with
  | nil => exact ⟨le_refl _, fun _ => rfl⟩
  | @cons item' item items' items hitem hrest ih =>
    cases item with
    | text t =>
      obtain rfl := Item.gives_text.mp hitem
      simp only [render, List.length_append]
      exact ⟨by omega, fun hle => congrArg _ (ih.2 (by omega))⟩
    | num k =>
      obtain rfl := Item.gives_num.mp hitem
      simp only [render, List.length_append]
      exact ⟨by omega, fun hle => congrArg _ (ih.2 (by omega))⟩
    | str u =>
      obtain ⟨s, rfl, hcol⟩ := Item.gives_str.mp hitem
      have hpre := charColumn_prefix hcol
      have hlen := hpre.length_le
      simp only [render, List.length_cons, List.length_append]
      refine ⟨by omega, fun hle => ?_⟩
      rw [ih.2 (by omega), hpre.eq_of_length (by omega)]

theorem gives_self_iff {items : List Item} :
    List.Forall₂ (Item.Gives strict n) items items ↔ ∀ s, .str s ∈ items → InCharColumn n s := by
  rw [List.forall₂_same]
  constructor
  · exact fun h s hs => charColumn_eq_self_iff.mp (h _ hs)
  · intro h item hitem
    cases item with
    | text | num => rfl
    | str s => exact charColumn_eq_self_iff.mpr (h s hitem)

theorem mapM_column_of_gives {items' items : List Item}
    (h : List.Forall₂ (Item.Gives strict n) items' items) :
    (values items').mapM (Value.column strict n) = some (values items) := by
  induction h with
  | nil => rfl
  | @cons item' item items' items hitem hrest ih =>
    cases item with
    | text t =>
      obtain rfl := Item.gives_text.mp hitem
      exact ih
    | num k =>
      obtain rfl := Item.gives_num.mp hitem
      show (Value.num k :: values items').mapM _ = _
      rw [List.mapM_cons, ih]
      rfl
    | str u =>
      obtain ⟨s, rfl, hcol⟩ := Item.gives_str.mp hitem
      show (Value.str s :: values items').mapM _ = _
      rw [List.mapM_cons, ih, Value.column, hcol]
      rfl

/-- **When the row of a statement holds its values.** -/
theorem readRow_render_iff {items : List Item} (hapart : Apart items) :
    readRow strict n (items.map Item.shape) (render items) = some (values items) ↔
      Readable items ∧ ∀ s, .str s ∈ items → InCharColumn n s := by
  constructor
  · intro h
    obtain ⟨items', hgives, hread⟩ := exists_gives h
    obtain rfl := (length_render_of_gives hgives).2 (read_spec hread).1
    exact ⟨(read_render_iff hapart).mp hread, gives_self_iff.mp hgives⟩
  · rintro ⟨hreadable, hcol⟩
    unfold readRow
    rw [read_render hapart hreadable, Option.bind_some]
    exact mapM_column_of_gives (gives_self_iff.mpr hcol)

end

end Sql
