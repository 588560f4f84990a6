import Ebdr.Lib.ByteMemory

/-!
# Byte streams

One direction of a connection: the bytes sent, in order, of which the receiver has taken the first
ones. A `send` may accept, and a `take` may deliver, any number of bytes; nothing in the stream says
where a message ends.

* `Holds s off m n`: the `n` bytes of `m` lie in the stream, `off` bytes after the next one.
* `Queue s size P n m k`: the stream is `n` whole messages of `size` bytes, each with `P`, and then the
  first `k` bytes of `m`. A receiver that takes `size` bytes each time sees these messages one by one.
-/

namespace ByteMem

structure Stream where
  /-- Every byte that was sent, by its place in the stream. -/
  bytes : Mem
  received : Nat
  /-- The number of bytes sent and not received. -/
  pending : Nat

namespace Stream

def empty : Stream := ⟨fun _ => 0, 0, 0⟩

/-- The first `n` bytes of `src` are sent. -/
def send (s : Stream) (src : Mem) (n : Nat) : Stream :=
  ⟨copyBytes s.bytes (s.received + s.pending) src 0 n, s.received, s.pending + n⟩

/-- The next `n` bytes are received. -/
def take (s : Stream) (n : Nat) : Stream := ⟨s.bytes, s.received + n, s.pending - n⟩

/-- The buffer that receives them. -/
def fill (s : Stream) (dst : Mem) (n : Nat) : Mem := copyBytes dst 0 s.bytes s.received n

structure Holds (s : Stream) (off : Nat) (m : Mem) (n : Nat) : Prop where
  le : off + n ≤ s.pending
  eq : ∀ i < n, s.bytes (s.received + off + i) = m i

variable {s : Stream} {off n k : Nat} {m src dst : Mem}

theorem holds_send (s : Stream) (src : Mem) (k : Nat) : (s.send src k).Holds s.pending src k where
  le := le_refl _
  eq := by
    intro i hi
    have hin : s.received + s.pending ≤ s.received + s.pending + i ∧
        s.received + s.pending + i < s.received + s.pending + k := by omega
    have hidx : 0 + (s.received + s.pending + i - (s.received + s.pending)) = i := by omega
    show copyBytes s.bytes (s.received + s.pending) src 0 k (s.received + s.pending + i) = src i
    rw [copyBytes, if_pos hin, hidx]

theorem Holds.send (h : s.Holds off m n) : (s.send src k).Holds off m n where
  le := le_trans h.le (Nat.le_add_right _ _)
  eq := by
    intro i hi
    have hle := h.le
    show copyBytes s.bytes (s.received + s.pending) src 0 k (s.received + off + i) = m i
    rw [copyBytes, if_neg (by omega)]
    exact h.eq i hi

theorem Holds.take (h : s.Holds (k + off) m n) : (s.take k).Holds off m n where
  le := by
    have hle := h.le
    show off + n ≤ s.pending - k
    omega
  eq := by
    intro i hi
    have heq := h.eq i hi
    rw [← Nat.add_assoc] at heq
    exact heq

theorem Holds.fill (h : s.Holds 0 m n) : ∀ i < n, s.fill dst n i = m i := by
  intro i hi
  rw [Stream.fill, copyBytes_of_lt hi]
  exact h.eq i hi

/-! ### Messages of one size -/

structure Queue (s : Stream) (size : Nat) (P : Mem → Prop) (n : Nat) (m : Mem) (k : Nat) : Prop where
  pending : s.pending = size * n + k
  whole : ∀ i < n, ∃ x, P x ∧ s.Holds (size * i) x size
  last : s.Holds (size * n) m k

variable {size : Nat} {P : Mem → Prop}

theorem queue_of_empty (h : s.pending = 0) : s.Queue size P 0 m 0 where
  pending := h
  whole := by
    intro i hi
    omega
  last := ⟨by omega, by
    intro i hi
    omega⟩

theorem Queue.snoc (h : s.Queue size P n m 0) (hp : P src) :
    (s.send src size).Queue size P (n + 1) m 0 where
  pending := by
    show s.pending + size = size * (n + 1) + 0
    rw [h.pending, Nat.mul_succ, Nat.add_zero, Nat.add_zero]
  whole := by
    intro i hi
    rcases Nat.lt_succ_iff_lt_or_eq.mp hi with hlt | heq
    · obtain ⟨x, hx, hold⟩ := h.whole i hlt
      exact ⟨x, hx, hold.send⟩
    · have hnew := holds_send s src size
      rw [h.pending, Nat.add_zero] at hnew
      rw [heq]
      exact ⟨src, hp, hnew⟩
  last := by
    refine ⟨?_, by
      intro i hi
      omega⟩
    show size * (n + 1) + 0 ≤ s.pending + size
    rw [h.pending, Nat.mul_succ]
    omega

theorem Queue.nothing {m' : Mem} (h : s.Queue size P n m 0) : s.Queue size P n m' 0 where
  pending := h.pending
  whole := h.whole
  last := ⟨h.last.le, by
    intro i hi
    omega⟩

theorem Queue.start (h : s.Queue size P n m 0) (src : Mem) (k : Nat) :
    (s.send src k).Queue size P n src k where
  pending := by
    show s.pending + k = size * n + k
    rw [h.pending, Nat.add_zero]
  whole := by
    intro i hi
    obtain ⟨x, hx, hold⟩ := h.whole i hi
    exact ⟨x, hx, hold.send⟩
  last := by
    have hnew := holds_send s src k
    rw [h.pending, Nat.add_zero] at hnew
    exact hnew

theorem Queue.take (h : s.Queue size P (n + 1) m k) :
    (s.take size).Queue size P n m k ∧ ∃ x, P x ∧ s.Holds 0 x size := by
  have hmul : size * (n + 1) = size + size * n := by rw [Nat.mul_succ, Nat.add_comm]
  refine ⟨⟨?_, ?_, ?_⟩, h.whole 0 (by omega)⟩
  · show s.pending - size = size * n + k
    have hpend := h.pending
    omega
  · intro i hi
    obtain ⟨x, hx, hold⟩ := h.whole (i + 1) (by omega)
    refine ⟨x, hx, Holds.take ?_⟩
    rwa [Nat.mul_succ, Nat.add_comm] at hold
  · apply Holds.take
    have hold := h.last
    rwa [hmul] at hold

end Stream

end ByteMem
