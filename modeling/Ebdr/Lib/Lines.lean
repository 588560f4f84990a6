import Mathlib.Data.List.TakeWhile
import Mathlib.Tactic.Common

/-!
# Lines and tokens in C

`fgets` reads a file in pieces that end behind a newline or where the buffer is full, and `strtok`
takes one token after the other from a string. `pieces` are what a loop over `fgets` reads, `words` the
maximal runs of other bytes than delimiters; `words_of_strtok` says that the calls of `strtok` give
these in order.
-/

namespace Lines

/-! ### `fgets` -/

/-- `fgets` with room for `n` characters: the piece and what is left of the file. -/
def fgets : Nat → List UInt8 → List UInt8 × List UInt8
  | 0, s => ([], s)
  | _ + 1, [] => ([], [])
  | n + 1, b :: s => if b = 10 then ([b], s) else (b :: (fgets n s).1, (fgets n s).2)

theorem length_fgets_le (n : Nat) (s : List UInt8) : (fgets n s).2.length ≤ s.length := by
  induction n generalizing s with
  | zero => exact le_refl _
  | succ n ih =>
    cases s with
    | nil => exact le_refl _
    | cons b s =>
      rw [fgets]
      split
      · exact Nat.le_succ _
      · exact le_trans (ih s) (Nat.le_succ _)

theorem length_fgets_lt (n : Nat) (b : UInt8) (s : List UInt8) :
    (fgets (n + 1) (b :: s)).2.length < (b :: s).length := by
  rw [fgets]
  split
  · exact Nat.lt_succ_self _
  · exact Nat.lt_succ_of_le (length_fgets_le n s)

/-- `while(fgets(…))` with room for `n + 1` characters. -/
def pieces (n : Nat) : List UInt8 → List (List UInt8)
  | [] => []
  | b :: s => (fgets (n + 1) (b :: s)).1 :: pieces n (fgets (n + 1) (b :: s)).2
termination_by s => s.length
decreasing_by exact length_fgets_lt n b s

theorem fgets_line {n : Nat} {t : List UInt8} (ht : (10 : UInt8) ∉ t) (hlt : t.length < n)
    (rest : List UInt8) : fgets n (t ++ 10 :: rest) = (t ++ [10], rest) := by
  induction t generalizing n with
  | nil =>
    obtain ⟨n, rfl⟩ := Nat.exists_eq_succ_of_ne_zero (Nat.ne_of_gt hlt)
    rw [List.nil_append, fgets, if_pos rfl, List.nil_append]
  | cons b t ih =>
    obtain ⟨n, rfl⟩ := Nat.exists_eq_succ_of_ne_zero (Nat.ne_of_gt (Nat.zero_lt_of_lt hlt))
    rw [List.mem_cons, not_or] at ht
    rw [List.cons_append, fgets, if_neg (Ne.symm ht.1), ih ht.2 (Nat.lt_of_succ_lt_succ hlt)]
    rfl

theorem fgets_full {t : List UInt8} (ht : (10 : UInt8) ∉ t) (rest : List UInt8) :
    fgets t.length (t ++ rest) = (t, rest) := by
  induction t with
  | nil => rfl
  | cons b t ih =>
    rw [List.mem_cons, not_or] at ht
    rw [List.length_cons, List.cons_append, fgets, if_neg (Ne.symm ht.1), ih ht.2]

theorem fgets_end {n : Nat} {t : List UInt8} (ht : (10 : UInt8) ∉ t) (hle : t.length ≤ n) :
    fgets n t = (t, []) := by
  induction t generalizing n with
  | nil => cases n <;> rfl
  | cons b t ih =>
    obtain ⟨n, rfl⟩ := Nat.exists_eq_succ_of_ne_zero (Nat.ne_of_gt (Nat.zero_lt_of_lt hle))
    rw [List.mem_cons, not_or] at ht
    rw [fgets, if_neg (Ne.symm ht.1), ih ht.2 (Nat.le_of_succ_le_succ hle)]

theorem pieces_of_ne_nil {n : Nat} {s : List UInt8} (h : s ≠ []) :
    pieces n s = (fgets (n + 1) s).1 :: pieces n (fgets (n + 1) s).2 := by
  obtain ⟨b, s, rfl⟩ := List.exists_cons_of_ne_nil h
  rw [pieces]

/-- A line that fits is a piece with its newline; of one that just fills the buffer the newline is a
piece of its own. -/
theorem pieces_line {n : Nat} {t : List UInt8} (ht : (10 : UInt8) ∉ t) (hne : t ≠ [])
    (hle : t.length ≤ n + 1) (rest : List UInt8) :
    pieces n (t ++ 10 :: rest) =
      if t.length < n + 1 then (t ++ [10]) :: pieces n rest else t :: [10] :: pieces n rest := by
  have hcons : t ++ 10 :: rest ≠ [] := by
    rw [Ne, List.append_eq_nil_iff]
    exact fun h => hne h.1
  rw [pieces_of_ne_nil hcons]
  split
  · rename_i hlt
    rw [fgets_line ht hlt]
  · rename_i hge
    have hfull : n + 1 = t.length := by omega
    rw [hfull, fgets_full ht, pieces_of_ne_nil (List.cons_ne_nil 10 rest), fgets, if_pos rfl]

theorem pieces_end {n : Nat} {t : List UInt8} (ht : (10 : UInt8) ∉ t) (hne : t ≠ [])
    (hle : t.length ≤ n + 1) : pieces n t = [t] := by
  rw [pieces_of_ne_nil hne, fgets_end ht hle, pieces]

/-! ### `strtok` -/

section

variable (delim : UInt8 → Bool)

/-- A call of `strtok`: the next token and the string behind its delimiter. -/
def strtok (s : List UInt8) : Option (List UInt8 × List UInt8) :=
  let s := s.dropWhile delim
  if s = [] then none
  else some (s.takeWhile fun b => !delim b, (s.dropWhile fun b => !delim b).drop 1)

/-- The tokens of a string. -/
def words (s : List UInt8) : List (List UInt8) := (s.splitOnP delim).filter fun w => decide (w ≠ [])

variable {delim}

theorem words_nil : words delim [] = [] := rfl

theorem words_cons {b : UInt8} (hb : delim b = true) (s : List UInt8) :
    words delim (b :: s) = words delim s := by
  unfold words
  rw [List.splitOnP_cons_eq_if_modifyHead, if_pos hb]
  exact List.filter_cons_of_neg (by decide)

theorem words_word {w : List UInt8} (hne : w ≠ []) (hw : ∀ b ∈ w, delim b = false) :
    words delim w = [w] := by
  unfold words
  rw [List.splitOnP_eq_singleton hw]
  exact List.filter_cons_of_pos (decide_eq_true hne)

theorem words_word_append {w : List UInt8} (hne : w ≠ []) (hw : ∀ b ∈ w, delim b = false) {b : UInt8}
    (hb : delim b = true) (s : List UInt8) : words delim (w ++ b :: s) = w :: words delim s := by
  unfold words
  rw [List.splitOnP_append_cons_of_forall_mem hw b hb]
  exact List.filter_cons_of_pos (decide_eq_true hne)

theorem words_dropWhile (s : List UInt8) : words delim (s.dropWhile delim) = words delim s := by
  induction s with
  | nil => rfl
  | cons b s ih =>
    by_cases hb : delim b = true
    · rw [List.dropWhile_cons_of_pos hb, ih, words_cons hb]
    · rw [List.dropWhile_cons_of_neg hb]

/-- **The calls of `strtok` give the words in order.** -/
theorem words_of_strtok (s : List UInt8) :
    words delim s = match strtok delim s with
      | none => []
      | some (t, rest) => t :: words delim rest := by
  rw [← words_dropWhile]
  unfold strtok
  dsimp only
  cases hs : s.dropWhile delim with
  | nil => rfl
  | cons b s' =>
    have hb : delim b = false := by
      have := List.head?_dropWhile_not delim s
      simpa [hs] using this
    rw [if_neg (List.cons_ne_nil b s')]
    dsimp only
    have hsplit := List.takeWhile_append_dropWhile (p := fun b => !delim b) (l := b :: s')
    have hword : ∀ x ∈ (b :: s').takeWhile fun b => !delim b, delim x = false := by
      intro x hx
      simpa using List.mem_takeWhile_imp hx
    have hne : (b :: s').takeWhile (fun b => !delim b) ≠ [] := by
      rw [List.takeWhile_cons_of_pos (by rw [hb]; rfl)]
      exact List.cons_ne_nil b _
    cases hr : (b :: s').dropWhile fun b => !delim b with
    | nil =>
      rw [hr, List.append_nil] at hsplit
      rw [hsplit] at hword hne ⊢
      exact words_word hne hword
    | cons d r =>
      have hd : delim d = true := by
        have := List.head?_dropWhile_not (fun b => !delim b) (b :: s')
        simpa [hr] using this
      rw [hr] at hsplit
      conv_lhs => rw [← hsplit]
      exact words_word_append hne hword hd r

end

end Lines
