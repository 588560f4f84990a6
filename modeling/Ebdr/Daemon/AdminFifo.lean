import Ebdr.Lib.Lts
import Mathlib.Data.List.TakeWhile

/-!
# The administrator's FIFO

`ebdradm` writes each command to the FIFO of a daemon with one `write`; the daemon's control thread
reads up to `CMD_LEN` bytes into `str`, hands `str` to `parse_daemon_request` as a string, and clears
it. A FIFO keeps no borders between writes.

`delivered_once` says exactly in which runs the daemon gets every command once: where each read
finds one command.
-/

namespace Ebdr

open Lts

/-- `CMD_LEN`. -/
def cmdLen : Nat := 200

/-- A command string, which a `write` of its `strlen` bytes puts into the FIFO. -/
structure Command where
  text : List UInt8
  nonempty : text ≠ []
  noNul : 0 ∉ text
  length_le : text.length ≤ cmdLen

/-- The FIFO and the daemon's control thread. -/
structure AdminFifo where
  fifo : List UInt8
  /-- The strings that `parse_daemon_request` was called with. -/
  calls : List (List UInt8)
  /-- The commands that were written. This is no data of the program. -/
  written : List Command

inductive FifoEvent where
  | write (c : Command)
  /-- `beyond` is what lies in memory behind `str`. -/
  | read (beyond : List UInt8)

namespace AdminFifo

/-- The string that starts at `str`, which was zero before the read. -/
def str (bytes beyond : List UInt8) : List UInt8 :=
  if bytes.length < cmdLen then bytes.takeWhile (· ≠ 0)
  else (bytes ++ beyond).takeWhile (· ≠ 0)

/-- `read_from_fifo` and the rest of the loop of `cntrl_thread_init`. -/
def readFromFifo (s : AdminFifo) (beyond : List UInt8) : AdminFifo :=
  let bytes := s.fifo.take cmdLen
  let calls := if bytes.length ≠ 0 then s.calls ++ [str bytes beyond] else s.calls
  { s with fifo := s.fifo.drop cmdLen, calls := calls }

def step (s : AdminFifo) : FifoEvent → Option AdminFifo
  | .write c => some { s with fifo := s.fifo ++ c.text, written := s.written ++ [c] }
  | .read beyond => some (s.readFromFifo beyond)

def boot : AdminFifo := ⟨[], [], []⟩

/-- The commands that the daemon has not been called with. -/
def waiting (s : AdminFifo) : List Command := s.written.drop s.calls.length

/-- The calls are the first commands, each once and in order, and the FIFO holds the others. -/
structure Delivered (s : AdminFifo) : Prop where
  once : s.calls <+: s.written.map Command.text
  rest : s.fifo = (s.waiting.map Command.text).flatten

/-- A read finds one command, or first one that fills `str` to its end with a zero byte behind it. -/
def OneCommand (s : AdminFifo) : FifoEvent → Prop
  | .write _ => True
  | .read beyond =>
    match s.waiting with
    | [] => True
    | c :: rest => if c.text.length = cmdLen then beyond.takeWhile (· ≠ 0) = [] else rest = []

instance (s : AdminFifo) (e : FifoEvent) : Decidable (s.OneCommand e) := by
  unfold OneCommand
  split
  · infer_instance
  · split
    · infer_instance
    · rename_i rest _
      have : Decidable (rest = []) := decidable_of_iff (rest.isEmpty = true) List.isEmpty_iff
      split <;> infer_instance

/-! ### Strings -/

theorem takeWhile_noNul {l : List UInt8} (h : 0 ∉ l) : l.takeWhile (· ≠ 0) = l := by
  apply List.takeWhile_eq_self_iff.mpr
  intro x hx
  simp only [ne_eq, decide_not, Bool.not_eq_true', decide_eq_false_iff_not]
  rintro rfl
  exact h hx

theorem str_noNul {bytes beyond : List UInt8} (h : 0 ∉ bytes) :
    str bytes beyond = bytes ++ if bytes.length < cmdLen then [] else beyond.takeWhile (· ≠ 0) := by
  unfold str
  split
  · rw [takeWhile_noNul h, List.append_nil]
  · rw [List.takeWhile_append_of_pos]
    intro x hx
    simp only [ne_eq, decide_not, Bool.not_eq_true', decide_eq_false_iff_not]
    rintro rfl
    exact h hx

theorem flatten_noNul {cs : List Command} : 0 ∉ (cs.map Command.text).flatten := by
  intro h
  obtain ⟨l, hl, h0⟩ := List.mem_flatten.mp h
  obtain ⟨c, -, rfl⟩ := List.mem_map.mp hl
  exact c.noNul h0

/-! ### The steps -/

theorem delivered_boot : boot.Delivered where
  once := List.nil_prefix
  rest := rfl

theorem Delivered.all {s : AdminFifo} (h : s.Delivered) (he : s.fifo = []) :
    s.calls = s.written.map Command.text := by
  have hnone : s.waiting = [] := by
    cases hw : s.waiting with
    | nil => rfl
    | cons c rest =>
      have hrest := h.rest
      rw [he, hw, List.map_cons, List.flatten_cons] at hrest
      exact absurd (List.append_eq_nil_iff.mp hrest.symm).1 c.nonempty
  have hle : s.written.length ≤ s.calls.length := List.drop_eq_nil_iff.mp hnone
  apply h.once.eq_of_length_le
  rw [List.length_map]
  exact hle

theorem Delivered.split {s : AdminFifo} (h : s.Delivered) :
    s.written.map Command.text = s.calls ++ s.waiting.map Command.text := by
  obtain ⟨t, ht⟩ := h.once
  rw [waiting, List.map_drop, ← ht, List.drop_left]

theorem delivered_write {s : AdminFifo} {c : Command} (h : s.Delivered) :
    Delivered { s with fifo := s.fifo ++ c.text, written := s.written ++ [c] } := by
  have hle : s.calls.length ≤ s.written.length := by
    have hlen := h.once.length_le
    rwa [List.length_map] at hlen
  refine ⟨?_, ?_⟩
  · dsimp only
    rw [List.map_append]
    exact h.once.trans (List.prefix_append _ _)
  · show s.fifo ++ c.text = (((s.written ++ [c]).drop s.calls.length).map Command.text).flatten
    rw [List.drop_append_of_le_length hle, List.map_append, List.flatten_append, h.rest]
    simp [waiting]

/-- The call that a read makes, with at least one command waiting: it is right exactly when the text
is that of the first command and the others are left. -/
theorem delivered_read_iff {s : AdminFifo} {beyond : List UInt8} {c : Command} {rest : List Command}
    (h : s.Delivered) (hw : s.waiting = c :: rest) :
    (s.readFromFifo beyond).Delivered ↔
      str (s.fifo.take cmdLen) beyond = c.text ∧
        s.fifo.drop cmdLen = (rest.map Command.text).flatten := by
  have hpos : 0 < c.text.length := List.length_pos_iff.mpr c.nonempty
  have hcmd : 0 < cmdLen := by decide
  have hfifo : s.fifo = c.text ++ (rest.map Command.text).flatten := by
    rw [h.rest, hw, List.map_cons, List.flatten_cons]
  have hbytes : (s.fifo.take cmdLen).length ≠ 0 := by
    rw [List.length_take, hfifo, List.length_append]
    omega
  have hwritten : s.written.map Command.text =
      (s.calls ++ [c.text]) ++ rest.map Command.text := by
    rw [h.split, hw, List.map_cons, List.append_assoc, List.singleton_append]
  have hdrop : s.written.drop (s.calls.length + 1) = rest := by
    have hd : s.waiting.drop 1 = rest := by rw [hw, List.drop_one, List.tail_cons]
    rw [← hd, waiting, List.drop_drop]
  unfold readFromFifo
  dsimp only
  rw [if_pos hbytes]
  constructor
  · rintro ⟨honce, hrest⟩
    have htext : s.calls ++ [str (s.fifo.take cmdLen) beyond] = s.calls ++ [c.text] := by
      have hpre : s.calls ++ [c.text] <+: s.written.map Command.text := by
        rw [hwritten]
        exact List.prefix_append _ _
      apply (List.prefix_of_prefix_length_le honce hpre ?_).eq_of_length_le
      · simp
      · simp
    refine ⟨?_, ?_⟩
    · simpa using htext
    · have hrest' := hrest
      unfold waiting at hrest'
      dsimp only at hrest'
      rwa [List.length_append, List.length_singleton, hdrop] at hrest'
  · rintro ⟨htext, hrest⟩
    refine ⟨?_, ?_⟩
    · dsimp only
      rw [htext, hwritten]
      exact List.prefix_append _ _
    · unfold waiting
      dsimp only
      rw [List.length_append, List.length_singleton, hdrop, hrest]

/-- **Step lemma.** The condition is exact. -/
theorem delivered_step {s s' : AdminFifo} {e : FifoEvent} (h : s.Delivered)
    (hs : s.step e = some s') :
    (s.OneCommand e → s'.Delivered) ∧ (s'.Delivered → s.OneCommand e) := by
  cases e with
  | write c =>
    cases hs
    exact ⟨fun _ => delivered_write h, fun _ => trivial⟩
  | read beyond =>
    cases hs
    unfold OneCommand
    dsimp only
    cases hw : s.waiting with
    | nil =>
      have hfifo : s.fifo = [] := by rw [h.rest, hw]; rfl
      refine ⟨fun _ => ?_, fun _ => trivial⟩
      have hsame : s.readFromFifo beyond = s := by
        obtain ⟨fifo, calls, written⟩ := s
        cases hfifo
        rfl
      rw [hsame]
      exact h
    | cons c rest =>
      dsimp only
      rw [delivered_read_iff h hw]
      have hfifo : s.fifo = c.text ++ (rest.map Command.text).flatten := by
        rw [h.rest, hw, List.map_cons, List.flatten_cons]
      have hle := c.length_le
      split
      · rename_i hfull
        have htake : s.fifo.take cmdLen = c.text := by
          rw [hfifo, ← hfull, List.take_left]
        have hdrop : s.fifo.drop cmdLen = (rest.map Command.text).flatten := by
          rw [hfifo, ← hfull, List.drop_left]
        rw [htake, hdrop, str_noNul c.noNul, if_neg (by omega)]
        simp
      · rename_i hshort
        constructor
        · rintro rfl
          have htake : s.fifo.take cmdLen = c.text := by
            rw [hfifo, List.map_nil, List.flatten_nil, List.append_nil]
            exact List.take_of_length_le hle
          have hdrop : s.fifo.drop cmdLen = [] := by
            rw [hfifo, List.map_nil, List.flatten_nil, List.append_nil]
            exact List.drop_of_length_le hle
          rw [htake, hdrop, str_noNul c.noNul, if_pos (by omega), List.append_nil]
          exact ⟨rfl, rfl⟩
        · rintro ⟨htext, -⟩
          cases rest with
          | nil => rfl
          | cons d rest =>
            -- the string goes on into the next command
            exfalso
            have hpos : 0 < d.text.length := List.length_pos_iff.mpr d.nonempty
            have hnul : 0 ∉ s.fifo.take cmdLen := by
              intro h0
              have hmem := List.mem_of_mem_take h0
              rw [h.rest] at hmem
              exact flatten_noNul hmem
            rw [str_noNul hnul] at htext
            have hlen := congrArg List.length htext
            rw [List.length_append, List.length_take, hfifo, List.length_append, List.map_cons,
              List.flatten_cons, List.length_append] at hlen
            omega

/-- **Every command is delivered once**, in every state of a run, exactly when each read of the
daemon finds one command. -/
theorem delivered_once {es : List FifoEvent} {s : AdminFifo} (hr : run step boot es = some s) :
    Always step Delivered boot es ↔ Meets step OneCommand boot es :=
  always_iff_meets (fun _ h => h) (fun _ _ _ h hs => delivered_step h hs) delivered_boot hr

/-- `resync 0`. -/
def resyncZero : Command :=
  ⟨[114, 101, 115, 121, 110, 99, 32, 48], by decide, by decide, by decide⟩

theorem delivered_once_two :
    ∃ s, run step boot [.write resyncZero, .read [], .write resyncZero, .read []] = some s ∧
      s.calls = [resyncZero.text, resyncZero.text] ∧
        Always step Delivered boot [.write resyncZero, .read [], .write resyncZero, .read []] := by
  have hrun : run step boot [.write resyncZero, .read [], .write resyncZero, .read []] =
      some ⟨[], [resyncZero.text, resyncZero.text], [resyncZero, resyncZero]⟩ := rfl
  exact ⟨_, hrun, rfl, (delivered_once hrun).mpr (by decide)⟩

/-- Two commands before the daemon reads: it is called once, with both texts in a row. -/
theorem merged_commands :
    ¬ ∀ (es : List FifoEvent) (s : AdminFifo), run step boot es = some s →
      Always step Delivered boot es := by
  intro h
  have hrun : run step boot [.write resyncZero, .write resyncZero, .read []] =
      some ⟨[], [resyncZero.text ++ resyncZero.text], [resyncZero, resyncZero]⟩ := rfl
  have hdel := h _ _ hrun _ _ (List.prefix_refl _) hrun
  exact absurd (hdel.all rfl) (by decide)

end AdminFifo

end Ebdr
