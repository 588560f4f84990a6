import Ebdr.Protocol.Link

/-!
# The server's receive loop

`ebdr_conn_server_recv` receives header after header into one buffer and calls the handler that
`cmdMap` has for the opcode. `recv` with `MSG_WAITALL` gives a whole header while the stream has one,
then the bytes that are left, and then 0 or a negative result, by the way the stream ends. The loop
leaves for a negative result only. A handler that closes the socket makes the next `recv` fail, which
is the end of a stream by an error. Some handlers write into the buffer.

`recvLoop_iff` says for which streams the loop returns and has called the handlers once for each
whole header: the stream ends by an error, and what was left of it makes no known opcode with the
bytes that the buffer had.
-/

namespace Ebdr

/-- The bytes of a `replic_header`. -/
abbrev HeaderBuf := Fin headerSize → UInt8

namespace HeaderBuf

/-- The `opcode` field. -/
def opcode (h : HeaderBuf) : Nat :=
  (h ⟨4, by decide⟩).toNat + 256 * (h ⟨5, by decide⟩).toNat +
    65536 * (h ⟨6, by decide⟩).toNat + 16777216 * (h ⟨7, by decide⟩).toNat

/-- Write the low `n` bytes of `v` at offset `off`. -/
def store (h : HeaderBuf) (off n v : Nat) : HeaderBuf := fun i =>
  if off ≤ i.val ∧ i.val < off + n then UInt8.ofNat (v >>> (8 * (i.val - off))) else h i

/-- Received bytes replace the first ones. -/
def receive (h : HeaderBuf) (bytes : List UInt8) : HeaderBuf := fun i => bytes.getD i.val (h i)

/-- The header that a list of bytes is. -/
def ofBytes (bytes : List UInt8) : HeaderBuf := receive (fun _ => 0) bytes

theorem receive_eq_ofBytes (h : HeaderBuf) {bytes : List UInt8}
    (hlen : headerSize ≤ bytes.length) : h.receive bytes = ofBytes bytes := by
  funext i
  have hi : i.val < bytes.length := lt_of_lt_of_le i.isLt hlen
  unfold ofBytes receive
  rw [List.getD_eq_getElem _ _ hi, List.getD_eq_getElem _ _ hi]

@[simp] theorem receive_nil (h : HeaderBuf) : h.receive [] = h := rfl

theorem opcode_store (h : HeaderBuf) {v : Nat} (hv : v < 256) : (h.store 4 4 v).opcode = v := by
  have h8 : v >>> 8 = 0 := Nat.shiftRight_eq_zero _ _ (by omega)
  have h16 : v >>> 16 = 0 := Nat.shiftRight_eq_zero _ _ (by omega)
  have h24 : v >>> 24 = 0 := Nat.shiftRight_eq_zero _ _ (by omega)
  simp [opcode, store, h8, h16, h24]
  omega

theorem opcode_store_of_le (h : HeaderBuf) {off : Nat} (hoff : 8 ≤ off) (n v : Nat) :
    (h.store off n v).opcode = h.opcode := by
  have hlt : ∀ k : Nat, k < 8 → ¬ (off ≤ k ∧ k < off + n) := by
    intro k hk
    omega
  unfold opcode store
  rw [if_neg (hlt 4 (by decide)), if_neg (hlt 5 (by decide)), if_neg (hlt 6 (by decide)),
    if_neg (hlt 7 (by decide))]

end HeaderBuf

/-! ### The handlers -/

/-- The handlers in `cmdMap`. -/
inductive CmdFun where
  | getBitmap
  | getData
  | makePartner
  | removePartner
  | removeRelation
  | synReceived
  | ack
  | terminate
  | dataReq
  | verifyData
  deriving DecidableEq, Repr

namespace CmdFun

/-- The opcode of a handler in `cmdMap`. -/
def opcode : CmdFun → Nat
  | getBitmap => 3
  | getData => 4
  | makePartner => 6
  | removePartner => 7
  | removeRelation => 8
  | synReceived => 0
  | ack => 2
  | terminate => 5
  | dataReq => 10
  | verifyData => 14

end CmdFun

open CmdFun in
def cmdMap : List CmdFun :=
  [getBitmap, getData, makePartner, removePartner, removeRelation, synReceived, ack, terminate,
    dataReq, verifyData]

/-- What the handlers that answer find: the sizes in `replic_hdr_server_obj[pid]`, and the bytes that
`calculate_md5` writes, when it does not fail. -/
structure Found where
  bitmapSize : Nat
  grainSize : Nat
  chunkSize : Nat
  md5 : Option (Fin 64 → UInt8)

/-- The header as the handler leaves it. -/
def CmdFun.leaves (f : CmdFun) (found : Found) (h : HeaderBuf) : HeaderBuf :=
  match f with
  | .synReceived =>
    ((((h.store 16 8 found.bitmapSize).store 24 8 found.grainSize).store 32 8 found.chunkSize).store
      -- `SYN_ACK`
      4 4 1)
  -- `DATA_PREP`
  | .dataReq => (h.store 4 4 11).store 8 8 4096
  | .verifyData =>
    match found.md5 with
    -- `VERIFY_DATA_IGN`
    | none => h.store 4 4 16
    | some md5 =>
      let h : HeaderBuf := fun i =>
        if hi : 64 ≤ i.val ∧ i.val < 128 then md5 ⟨i.val - 64, by omega⟩ else h i
      -- `VERIFY_DATA_RSP`
      if md5 0 = 0 then h.store 4 4 16 else h.store 4 4 15
  | _ => h

/-! ### The loop -/

/-- How a stream ends. -/
inductive Ending where
  | shutdown
  | error
  deriving DecidableEq, Repr

/-- The thread in its loop: its buffer, the bytes that are still to be received, the handlers it has
called with the header each was given, and the number of headers received. -/
structure Receiver where
  header : HeaderBuf
  stream : List UInt8
  calls : List (CmdFun × HeaderBuf)
  turns : Nat

namespace Receiver

def start (header : HeaderBuf) (stream : List UInt8) : Receiver := ⟨header, stream, [], 0⟩

/-- The `recv` of the loop, `none` for a negative result. -/
def recvHeader (ending : Ending) (r : Receiver) : Option Receiver :=
  if r.stream = [] ∧ ending = .error then none
  else
    some { r with
      header := r.header.receive (r.stream.take headerSize)
      stream := r.stream.drop headerSize }

/-- One entry of `cmdMap`. -/
def callIf (found : Found) (r : Receiver) (f : CmdFun) : Receiver :=
  if r.header.opcode = f.opcode then
    { r with header := f.leaves found r.header, calls := r.calls ++ [(f, r.header)] }
  else r

/-- The search in `cmdMap`, which goes on after a handler was called. -/
def dispatch (found : Found) (r : Receiver) : Receiver :=
  { cmdMap.foldl (callIf found) r with turns := r.turns + 1 }

/-- `ebdr_conn_server_recv`, for a number of turns. `found n` is what the handler finds in turn
`n`. -/
def recvLoop (ending : Ending) (found : Nat → Found) : Nat → Receiver → Option Receiver
  | 0, _ => none
  | turns + 1, r =>
    match r.recvHeader ending with
    | none => some r
    | some r' => recvLoop ending found turns (r'.dispatch (found r.turns))

end Receiver

/-! ### One search -/

/-- The handler that `cmdMap` has for a header. -/
def handlerFor (h : HeaderBuf) : Option CmdFun :=
  cmdMap.find? fun f => decide (h.opcode = f.opcode)

/-- A handler leaves the opcode alone, or makes it one that `cmdMap` does not have. -/
theorem CmdFun.leaves_opcode (f : CmdFun) (found : Found) (h : HeaderBuf) :
    (f.leaves found h).opcode = h.opcode ∨
      ∀ g ∈ cmdMap, (f.leaves found h).opcode ≠ g.opcode := by
  cases f with
  | synReceived =>
    right
    rw [leaves, HeaderBuf.opcode_store _ (by decide)]
    decide
  | dataReq =>
    right
    rw [leaves, HeaderBuf.opcode_store_of_le _ (le_refl 8), HeaderBuf.opcode_store _ (by decide)]
    decide
  | verifyData =>
    right
    rw [leaves]
    split
    · rw [HeaderBuf.opcode_store _ (by decide)]
      decide
    · dsimp only
      split <;>
        · rw [HeaderBuf.opcode_store _ (by decide)]
          decide
  | _ => exact Or.inl rfl

namespace Receiver

theorem foldl_callIf_of_ne {found : Found} {fs : List CmdFun} {r : Receiver}
    (h : ∀ f ∈ fs, r.header.opcode ≠ f.opcode) : fs.foldl (callIf found) r = r := by
  induction fs with
  | nil => rfl
  | cons f fs ih =>
    have hf : callIf found r f = r := if_neg (h f (List.mem_cons_self ..))
    rw [List.foldl_cons, hf]
    exact ih fun g hg => h g (List.mem_cons_of_mem f hg)

theorem opcode_inj {f g : CmdFun} (h : f.opcode = g.opcode) : f = g := by
  cases f <;> cases g <;> first | rfl | cases h

/-- **One search** calls the handler of the opcode once, and no other. -/
theorem foldl_callIf (found : Found) (r : Receiver) :
    cmdMap.foldl (callIf found) r =
      match handlerFor r.header with
      | none => r
      | some f =>
        { r with header := f.leaves found r.header, calls := r.calls ++ [(f, r.header)] } := by
  cases hfind : handlerFor r.header with
  | none =>
    apply foldl_callIf_of_ne
    intro f hf
    simpa using List.find?_eq_none.mp hfind f hf
  | some f =>
    obtain ⟨hop, before, after, hsplit, hbefore⟩ := List.find?_eq_some_iff_append.mp hfind
    have hop : r.header.opcode = f.opcode := of_decide_eq_true hop
    have hnodup : (before ++ f :: after).Nodup := by
      rw [← hsplit]
      decide
    have hfirst : before.foldl (callIf found) r = r := by
      apply foldl_callIf_of_ne
      intro g hg
      simpa using hbefore g hg
    have hcall : callIf found r f =
        { r with header := f.leaves found r.header, calls := r.calls ++ [(f, r.header)] } :=
      if_pos hop
    rw [hsplit, List.foldl_append, List.foldl_cons, hfirst, hcall]
    apply foldl_callIf_of_ne
    intro g hg
    dsimp only
    obtain hkeep | hout := f.leaves_opcode found r.header
    · rw [hkeep, hop]
      intro heq
      rw [opcode_inj heq] at hnodup
      exact (List.nodup_cons.mp (List.nodup_append.mp hnodup).2.1).1 hg
    · apply hout g
      rw [hsplit]
      exact List.mem_append_right _ (List.mem_cons_of_mem f hg)

end Receiver

/-! ### Whole streams -/

/-- The header after the search for its opcode. -/
def handled (found : Found) (h : HeaderBuf) : HeaderBuf :=
  match handlerFor h with
  | none => h
  | some f => f.leaves found h

/-- The call that a header asks for. -/
def callsFor (h : HeaderBuf) : List (CmdFun × HeaderBuf) :=
  ((handlerFor h).map fun f => (f, h)).toList

/-- The whole headers of a stream. -/
def headersOf (stream : List UInt8) : List HeaderBuf :=
  (List.range (stream.length / headerSize)).map fun j =>
    .ofBytes ((stream.drop (headerSize * j)).take headerSize)

/-- The bytes behind them. -/
def remainder (stream : List UInt8) : List UInt8 :=
  stream.drop (headerSize * (stream.length / headerSize))

/-- The buffer behind the headers `hs`: the last one, as its handler leaves it. -/
def bufferAfter (found : Nat → Found) (header : HeaderBuf) (hs : List HeaderBuf) : HeaderBuf :=
  match hs.getLast? with
  | none => header
  | some h => handled (found (hs.length - 1)) h

/-- What the buffer holds when the bytes behind the last whole header were received. -/
def partialHeader (found : Nat → Found) (header : HeaderBuf) (stream : List UInt8) : HeaderBuf :=
  (bufferAfter found header (headersOf stream)).receive (remainder stream)

section

variable {stream : List UInt8}

theorem length_div_drop (hlen : headerSize ≤ stream.length) :
    stream.length / headerSize = (stream.drop headerSize).length / headerSize + 1 := by
  rw [List.length_drop]
  exact Nat.div_eq_sub_div (by decide) hlen

theorem headersOf_cons (hlen : headerSize ≤ stream.length) :
    headersOf stream =
      .ofBytes (stream.take headerSize) :: headersOf (stream.drop headerSize) := by
  unfold headersOf
  rw [length_div_drop hlen, List.range_succ_eq_map, List.map_cons, List.map_map]
  congr 1
  apply List.map_congr_left
  intro j _
  dsimp only [Function.comp]
  rw [List.drop_drop, Nat.succ_eq_add_one, Nat.mul_add, Nat.mul_one, Nat.add_comm]

theorem headersOf_of_lt (hlen : stream.length < headerSize) : headersOf stream = [] := by
  rw [headersOf, Nat.div_eq_of_lt hlen, List.range_zero, List.map_nil]

theorem remainder_drop (hlen : headerSize ≤ stream.length) :
    remainder (stream.drop headerSize) = remainder stream := by
  unfold remainder
  rw [List.drop_drop, length_div_drop hlen, Nat.mul_add, Nat.mul_one, Nat.add_comm]

theorem remainder_of_lt (hlen : stream.length < headerSize) : remainder stream = stream := by
  rw [remainder, Nat.div_eq_of_lt hlen, Nat.mul_zero, List.drop_zero]

theorem remainder_eq_nil : remainder stream = [] ↔ stream.length % headerSize = 0 := by
  have hmod := Nat.div_add_mod stream.length headerSize
  rw [remainder, List.drop_eq_nil_iff]
  omega

theorem bufferAfter_cons (found : Nat → Found) (header h : HeaderBuf) (hs : List HeaderBuf) :
    bufferAfter found header (h :: hs) =
      bufferAfter (fun n => found (n + 1)) (handled (found 0) h) hs := by
  unfold bufferAfter
  cases hs with
  | nil => rfl
  | cons g hs =>
    rw [List.getLast?_cons_cons]
    cases hlast : (g :: hs).getLast? with
    | none => simp at hlast
    | some l => rfl

theorem partialHeader_drop (found : Nat → Found) (header : HeaderBuf)
    (hlen : headerSize ≤ stream.length) :
    partialHeader found header stream =
      partialHeader (fun n => found (n + 1))
        (handled (found 0) (.ofBytes (stream.take headerSize))) (stream.drop headerSize) := by
  unfold partialHeader
  rw [headersOf_cons hlen, bufferAfter_cons, remainder_drop hlen]

end

namespace Receiver

variable {r r' : Receiver} {found : Nat → Found}

theorem dispatch_eq (found : Found) (r : Receiver) :
    r.dispatch found =
      ⟨handled found r.header, r.stream, r.calls ++ callsFor r.header, r.turns + 1⟩ := by
  unfold dispatch handled callsFor
  rw [foldl_callIf]
  cases handlerFor r.header with
  | none => simp
  | some f => simp

/-- No number of turns is enough when the stream ends by a shutdown. -/
theorem recvLoop_shutdown (found : Nat → Found) (turns : Nat) (r : Receiver) :
    recvLoop .shutdown found turns r = none := by
  induction turns generalizing r with
  | zero => rfl
  | succ turns ih =>
    have hrecv : r.recvHeader .shutdown = some { r with
        header := r.header.receive (r.stream.take headerSize)
        stream := r.stream.drop headerSize } := by
      apply if_neg
      rintro ⟨-, h⟩
      cases h
    rw [recvLoop, hrecv]
    exact ih _

theorem recvLoop_mono {ending : Ending} {m n : Nat} (hmn : m ≤ n)
    (h : recvLoop ending found m r = some r') : recvLoop ending found n r = some r' := by
  induction m generalizing n r with
  | zero => cases h
  | succ m ih =>
    obtain ⟨n, rfl⟩ : ∃ k, n = k + 1 := ⟨n - 1, by omega⟩
    rw [recvLoop] at h ⊢
    cases hrecv : r.recvHeader ending with
    | none =>
      rw [hrecv] at h
      exact h
    | some r1 =>
      rw [hrecv] at h
      exact ih (by omega) h

theorem recvLoop_unique {ending : Ending} {m n : Nat} {r1 r2 : Receiver}
    (h1 : recvLoop ending found m r = some r1) (h2 : recvLoop ending found n r = some r2) :
    r1 = r2 := by
  have h1 := recvLoop_mono (Nat.le_max_left m n) h1
  have h2 := recvLoop_mono (Nat.le_max_right m n) h2
  exact Option.some.inj (h1.symm.trans h2)

/-- The state after a turn that receives bytes. -/
def next (found : Nat → Found) (r : Receiver) : Receiver :=
  let header := r.header.receive (r.stream.take headerSize)
  ⟨handled (found r.turns) header, r.stream.drop headerSize, r.calls ++ callsFor header, r.turns + 1⟩

theorem recvLoop_succ {ending : Ending} (turns : Nat) (hne : r.stream ≠ []) :
    recvLoop ending found (turns + 1) r = recvLoop ending found turns (r.next found) := by
  have hrecv : r.recvHeader ending = some { r with
      header := r.header.receive (r.stream.take headerSize)
      stream := r.stream.drop headerSize } := if_neg fun h => hne h.1
  rw [recvLoop, hrecv]
  dsimp only
  rw [dispatch_eq]
  rfl

theorem recvLoop_end (turns : Nat) (hnil : r.stream = []) :
    recvLoop .error found (turns + 1) r = some r := by
  have hrecv : r.recvHeader .error = none := if_pos ⟨hnil, rfl⟩
  rw [recvLoop, hrecv]

/-- **A stream that ends by an error**: the loop returns, after one call for each whole header and one
for the bytes behind them, if there are any and the buffer then has a known opcode. -/
theorem recvLoop_error (n : Nat) (hn : r.stream.length / headerSize = n) :
    ∃ r', recvLoop .error found (n + 2) r = some r' ∧
      r'.calls = r.calls ++ ((headersOf r.stream).flatMap callsFor ++
        if remainder r.stream = [] then []
        else callsFor (partialHeader (fun k => found (r.turns + k)) r.header r.stream)) := by
  induction n generalizing r with
  | zero =>
    have hlen : r.stream.length < headerSize := by
      rw [Nat.div_eq_zero_iff] at hn
      exact hn.resolve_left (by decide)
    rw [headersOf_of_lt hlen, remainder_of_lt hlen]
    by_cases hnil : r.stream = []
    · refine ⟨r, recvLoop_end 1 hnil, ?_⟩
      rw [if_pos hnil]
      simp
    · rw [recvLoop_succ 1 hnil, recvLoop_end 0 (List.drop_eq_nil_of_le (le_of_lt hlen))]
      refine ⟨_, rfl, ?_⟩
      rw [if_neg hnil, partialHeader, headersOf_of_lt hlen, remainder_of_lt hlen, next,
        List.take_of_length_le (le_of_lt hlen)]
      rfl
  | succ n ih =>
    have hlen : headerSize ≤ r.stream.length := by
      by_contra hlt
      rw [Nat.div_eq_of_lt (by omega)] at hn
      omega
    have hne : r.stream ≠ [] := by
      intro hnil
      rw [hnil] at hlen
      exact absurd hlen (by decide)
    have hfull : r.header.receive (r.stream.take headerSize) =
        .ofBytes (r.stream.take headerSize) := by
      apply HeaderBuf.receive_eq_ofBytes
      rw [List.length_take, Nat.min_eq_left hlen]
    have hn' : (r.next found).stream.length / headerSize = n := by
      have hdiv := length_div_drop hlen
      rw [hn] at hdiv
      exact (Nat.add_right_cancel hdiv).symm
    obtain ⟨r', hr', hcalls⟩ := ih hn'
    refine ⟨r', (recvLoop_succ (n + 2) hne).trans hr', ?_⟩
    rw [hcalls, headersOf_cons hlen, List.flatMap_cons, partialHeader_drop _ _ hlen]
    simp only [next, hfull, remainder_drop hlen, List.append_assoc, Nat.add_zero, Nat.add_assoc,
      Nat.add_comm 1]

end Receiver

/-! ### The property and its condition -/

/-- The loop returns, and has called the handlers once for each whole header, in order. -/
def Receives (ending : Ending) (found : Nat → Found) (header : HeaderBuf) (stream : List UInt8) :
    Prop :=
  ∃ turns r, Receiver.recvLoop ending found turns (.start header stream) = some r ∧
    r.calls = (headersOf stream).flatMap callsFor

/-- **The receive loop is right** about a stream if and only if the stream ends by an error and leaves
no bytes behind its whole headers, or bytes that make no opcode of `cmdMap` in the buffer. -/
theorem recvLoop_iff (ending : Ending) (found : Nat → Found) (header : HeaderBuf)
    (stream : List UInt8) :
    Receives ending found header stream ↔
      ending = .error ∧
        (stream.length % headerSize = 0 ∨
          handlerFor (partialHeader found header stream) = none) := by
  cases ending with
  | shutdown =>
    constructor
    · rintro ⟨turns, r, hr, -⟩
      rw [Receiver.recvLoop_shutdown] at hr
      cases hr
    · rintro ⟨h, -⟩
      cases h
  | error =>
    obtain ⟨r, hr, hcalls⟩ := @Receiver.recvLoop_error (.start header stream) found _ rfl
    have hiff : r.calls = (headersOf stream).flatMap callsFor ↔
        (stream.length % headerSize = 0 ∨
          handlerFor (partialHeader found header stream) = none) := by
      rw [← remainder_eq_nil, hcalls]
      simp only [Receiver.start, List.nil_append, Nat.zero_add]
      by_cases hrem : remainder stream = []
      · simp [hrem]
      · rw [if_neg hrem]
        simp [hrem, callsFor]
    constructor
    · rintro ⟨turns, r', hr', hcalls'⟩
      rw [Receiver.recvLoop_unique hr' hr] at hcalls'
      exact ⟨rfl, hiff.mp hcalls'⟩
    · rintro ⟨-, hcond⟩
      exact ⟨_, r, hr, hiff.mpr hcond⟩

/-- A `DATA` header, and then a shutdown. -/
theorem shutdown_not_received :
    ¬ ∀ ending found header stream, Receives ending found header stream := by
  intro hall
  let data : List UInt8 := [0, 0, 0, 0, 4] ++ List.replicate 275 0
  obtain ⟨turns, r, hr, -⟩ := hall .shutdown (fun _ => ⟨0, 0, 0, none⟩) (fun _ => 0) data
  rw [Receiver.recvLoop_shutdown] at hr
  cases hr

end Ebdr
