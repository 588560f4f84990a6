import Mathlib.Data.List.TakeWhile
import Mathlib.Tactic.Common

/-!
# C strings in fixed-size buffers

A buffer is a list of bytes, and its string is what stands before the first zero byte. Storing a
string writes its bytes and a zero byte; what stood behind them stays. `take_eq_take_iff` says when
two buffers agree on their first `n` bytes: their strings are the same and so are the bytes behind
them, as far as they count, or the strings differ behind the first `n` characters.
-/

namespace CString

/-- The string in a buffer. -/
def text (b : List UInt8) : List UInt8 := b.takeWhile (· != 0)

/-- Store a string at the start of a buffer (`strcpy`, or `%s` of `sscanf`). -/
def store (b s : List UInt8) : List UInt8 := s ++ 0 :: b.drop (s.length + 1)

theorem text_append_zero {s r : List UInt8} (h : (0 : UInt8) ∉ s) : text (s ++ 0 :: r) = s := by
  have hall : ∀ x ∈ s, (x != 0) = true := by
    intro x hx
    rw [bne_iff_ne]
    rintro rfl
    exact h hx
  unfold text
  rw [List.takeWhile_append_of_pos hall, List.takeWhile_cons_of_neg (by decide), List.append_nil]

@[simp] theorem text_store {b s : List UInt8} (h : (0 : UInt8) ∉ s) : text (store b s) = s :=
  text_append_zero h

theorem length_store {b s : List UInt8} (h : s.length < b.length) :
    (store b s).length = b.length := by
  simp [store]
  omega

theorem zero_mem_store (b s : List UInt8) : (0 : UInt8) ∈ store b s := by
  simp [store]

theorem zero_not_mem_text (b : List UInt8) : (0 : UInt8) ∉ text b := by
  intro h
  have := List.mem_takeWhile_imp h
  revert this
  decide

/-- A buffer with a zero byte is its string, the zero byte, and a rest. -/
theorem eq_text_append {b : List UInt8} (h : (0 : UInt8) ∈ b) :
    b = text b ++ 0 :: b.drop ((text b).length + 1) := by
  induction b with
  | nil => cases h
  | cons x b ih =>
    by_cases hx : x = 0
    · rw [hx]
      simp [text]
    · have hmem : (0 : UInt8) ∈ b := (List.mem_cons.mp h).resolve_left (Ne.symm hx)
      have htext : text (x :: b) = x :: text b := by
        unfold text
        rw [List.takeWhile_cons_of_pos (by simpa using hx)]
      rw [htext]
      simp only [List.length_cons, List.drop_succ_cons, List.cons_append]
      rw [← ih hmem]

/-- The bytes behind the string, up to the first `n` bytes of the buffer. -/
def rest (b : List UInt8) (n : Nat) : List UInt8 :=
  (b.drop ((text b).length + 1)).take (n - ((text b).length + 1))

theorem take_of_le {b : List UInt8} {n : Nat} (h0 : (0 : UInt8) ∈ b) (h : n ≤ (text b).length) :
    b.take n = (text b).take n := by
  conv_lhs => rw [eq_text_append h0]
  exact List.take_append_of_le_length h

theorem take_of_lt {b : List UInt8} {n : Nat} (h0 : (0 : UInt8) ∈ b) (h : (text b).length < n) :
    b.take n = text b ++ 0 :: rest b n := by
  obtain ⟨k, rfl⟩ : ∃ k, n = (text b).length + (k + 1) := ⟨n - (text b).length - 1, by omega⟩
  have hk : (text b).length + (k + 1) - ((text b).length + 1) = k := by omega
  have htake := congrArg (List.take ((text b).length + (k + 1))) (eq_text_append h0)
  rw [List.take_length_add_append, List.take_succ_cons] at htake
  rw [htake, rest, hk]

theorem text_eq_of_take_eq {a b : List UInt8} {n : Nat} (ha : (0 : UInt8) ∈ a)
    (hb : (0 : UInt8) ∈ b) (hlt : (text a).length < n) (h : a.take n = b.take n) :
    text a = text b := by
  rw [take_of_lt ha hlt] at h
  by_cases hb' : (text b).length < n
  · rw [take_of_lt hb hb'] at h
    have htext := congrArg text h
    rwa [text_append_zero (zero_not_mem_text a), text_append_zero (zero_not_mem_text b)] at htext
  · rw [take_of_le hb (by omega)] at h
    have hzero : (0 : UInt8) ∈ (text b).take n := by
      rw [← h]
      simp
    exact absurd (List.mem_of_mem_take hzero) (zero_not_mem_text b)

/-- **When two buffers agree on their first `n` bytes.** -/
theorem take_eq_take_iff {a b : List UInt8} {n : Nat} (ha : (0 : UInt8) ∈ a)
    (hb : (0 : UInt8) ∈ b) :
    a.take n = b.take n ↔
      (text a = text b ∧ rest a n = rest b n) ∨
        (text a ≠ text b ∧ n ≤ (text a).length ∧ n ≤ (text b).length ∧
          (text a).take n = (text b).take n) := by
  constructor
  · intro h
    by_cases heq : text a = text b
    · refine Or.inl ⟨heq, ?_⟩
      by_cases hlt : (text a).length < n
      · have hlt' : (text b).length < n := by rwa [← heq]
        rw [take_of_lt ha hlt, take_of_lt hb hlt', heq, List.append_cancel_left_eq,
          List.cons.injEq] at h
        exact h.2
      · have h0 : n - ((text a).length + 1) = 0 := by omega
        rw [rest, rest, ← heq, h0, List.take_zero, List.take_zero]
    · have hle : n ≤ (text a).length := by
        by_contra hlt
        exact heq (text_eq_of_take_eq ha hb (by omega) h)
      have hle' : n ≤ (text b).length := by
        by_contra hlt
        exact heq (text_eq_of_take_eq hb ha (by omega) h.symm).symm
      rw [take_of_le ha hle, take_of_le hb hle'] at h
      exact Or.inr ⟨heq, hle, hle', h⟩
  · rintro (⟨heq, hrest⟩ | ⟨-, hle, hle', h⟩)
    · by_cases hlt : (text a).length < n
      · have hlt' : (text b).length < n := by rwa [← heq]
        rw [take_of_lt ha hlt, take_of_lt hb hlt', heq, hrest]
      · have hle : n ≤ (text b).length := by
          rw [← heq]
          omega
        rw [take_of_le ha (by omega), take_of_le hb hle, heq]
    · rw [take_of_le ha hle, take_of_le hb hle', h]

end CString
