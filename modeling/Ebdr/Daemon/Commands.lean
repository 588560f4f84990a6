import Ebdr.Daemon.AdminFifo
import Ebdr.Lib.Scan

/-!
# The command line

`ebdradm` prints an option and its arguments into a line and writes it to the FIFO of one of the two
daemons, whose `parse_daemon_request` finds the option in the first character and scans the line. The
options are those that the daemon has a case for; an `AdmCommand` has the arguments that `ebdradm`
asks for, as they stand in its `argv`.

`agrees_iff` says for which commands printing, routing and scanning agree.
-/

namespace Ebdr

open Scan

/-- The two builds of the daemon. -/
inductive Build where
  | server
  | client
  deriving DecidableEq, Repr

/-- An option of `ebdradm` with its arguments. -/
inductive AdmCommand where
  | serverlog (threadId logLevel : Decimal)
  | clientlog (threadId logLevel : Decimal)
  | create (srcDisk : Word) (grainSize bitmapSize : Decimal)
  /-- The four lists look at no argument. -/
  | listps (ignored : List Arg)
  | listpc (ignored : List Arg)
  | listrs (ignored : List Arg)
  | listrc (ignored : List Arg)
  | grain (grainSize bitmapSize : Decimal)
  | mkpartner (ip : Word) (bandwidth : Decimal) (targetDisk : Word)
      (bitmapSize grainSize chunkSize : Decimal)
  | rmpartner (partnerId : Decimal)
  | rmrelationpeer (relationId : Decimal)
  | metadata (partnerId : Decimal)
  | resync (partnerId : Decimal)
  | pause (partnerId : Decimal)
  | resume (partnerId : Decimal)
  | snap (disk : Word) (partnerId : Decimal)
  | mkrelation (partnerId role : Decimal) (srcDisk : Word)
      (bitmapSize grainSize chunkSize : Decimal)
  | mkrelationpeer (partnerId role : Decimal) (targetDisk : Word)
      (bitmapSize grainSize chunkSize : Decimal)
  /-- `client` or `server`. -/
  | dbinfo (which : Word)

/-- The bytes of a text. -/
def ascii (s : String) : List UInt8 := s.toList.map fun c => UInt8.ofNat c.toNat

/-- A word of a format. -/
def lit (s : String) (h : (ascii s).all (fun b => !isSpace b && b != 0) = true) : Word where
  bytes := ascii s
  noSpace := by
    intro b hb
    have hall := List.all_eq_true.mp h b hb
    simp only [Bool.and_eq_true, Bool.not_eq_true'] at hall
    exact hall.1
  noNul := by
    intro h0
    have hall := List.all_eq_true.mp h 0 h0
    simp at hall

/-- A line that `ebdradm` prints: a word, the arguments, and what stands behind them. -/
structure Line where
  word : Word
  args : List Arg
  tail : List UInt8

/-- The line as it is written. -/
def Line.text (l : Line) : List UInt8 := l.word.bytes ++ (print l.args ++ l.tail)

namespace AdmCommand

/-! ### `ebdradm` -/

/-- The value of the option in `long_options`. -/
def letter : AdmCommand → UInt8
  | serverlog .. => 97
  | clientlog .. => 98
  | create .. => 99
  | listps _ => 101
  | listpc _ => 102
  | grain .. => 103
  | listrs _ => 105
  | listrc _ => 106
  | rmpartner _ => 107
  | resume _ => 108
  | metadata _ => 109
  | pause _ => 110
  | rmrelationpeer _ => 111
  | mkpartner .. => 112
  | resync _ => 114
  | snap .. => 115
  | mkrelation .. => 120
  | mkrelationpeer .. => 121
  | dbinfo _ => 122

/-- The line that is printed; those of the lists and of `dbinfo` are constants. -/
def line : AdmCommand → Line
  | serverlog threadId logLevel =>
    ⟨lit "aserverlog" rfl, [.number threadId, .number logLevel], []⟩
  | clientlog threadId logLevel =>
    ⟨lit "bclientlog" rfl, [.number threadId, .number logLevel], []⟩
  | create srcDisk grainSize bitmapSize =>
    ⟨lit "create" rfl,
      [.word srcDisk, .number grainSize, .number bitmapSize], []⟩
  | listps _ => ⟨lit "e" rfl, [], []⟩
  | listpc _ => ⟨lit "f" rfl, [], []⟩
  | grain grainSize bitmapSize =>
    ⟨lit "grainset" rfl, [.number grainSize, .number bitmapSize], []⟩
  | listrs _ => ⟨lit "i" rfl, [], []⟩
  | listrc _ => ⟨lit "j" rfl, [], []⟩
  | mkpartner ip bandwidth targetDisk bitmapSize grainSize chunkSize =>
    ⟨lit "partner" rfl,
      [.word ip, .number bandwidth, .word targetDisk, .number bitmapSize, .number grainSize,
        .number chunkSize], []⟩
  | rmpartner partnerId =>
    ⟨lit "killpartner" rfl, [.number partnerId], []⟩
  | rmrelationpeer relationId =>
    ⟨lit "ormrelation" rfl, [.number relationId], []⟩
  | metadata partnerId => ⟨lit "metadata" rfl, [.number partnerId], []⟩
  | resync partnerId => ⟨lit "resync" rfl, [.number partnerId], []⟩
  | pause partnerId => ⟨lit "npause" rfl, [.number partnerId], []⟩
  | resume partnerId => ⟨lit "lresume" rfl, [.number partnerId], []⟩
  | snap disk partnerId =>
    ⟨lit "snap" rfl, [.word disk, .number partnerId], []⟩
  | mkrelation partnerId role srcDisk bitmapSize grainSize chunkSize =>
    ⟨lit "x" rfl,
      [.number partnerId, .number role, .word srcDisk, .number bitmapSize, .number grainSize,
        .number chunkSize], ascii " "⟩
  | mkrelationpeer partnerId role targetDisk bitmapSize grainSize chunkSize =>
    ⟨lit "y" rfl,
      [.number partnerId, .number role, .word targetDisk, .number bitmapSize, .number grainSize,
        .number chunkSize], ascii " "⟩
  | dbinfo _ => ⟨lit "z" rfl, [], []⟩

/-- The FIFO that the line is written to. -/
def fifo : AdmCommand → Build
  | serverlog .. | create .. | listps _ | grain .. | listrs _ | snap .. | mkrelation .. => .server
  | clientlog .. | listpc _ | listrc _ | mkpartner .. | rmpartner _ | rmrelationpeer _
  | metadata _ | resync _ | pause _ | resume _ | mkrelationpeer .. => .client
  | dbinfo which =>
    -- `*argv[2]` is `c` or `C`
    if which.bytes.head? = some 99 ∨ which.bytes.head? = some 67 then .server else .client

/-- The daemon that the command is for: that of its name, and for `dbinfo` the one it names. -/
def meantFor : AdmCommand → Build
  | serverlog .. | create .. | listps _ | grain .. | listrs _ | snap .. | mkrelation .. => .server
  | clientlog .. | listpc _ | listrc _ | mkpartner .. | rmpartner _ | rmrelationpeer _
  | metadata _ | resync _ | pause _ | resume _ | mkrelationpeer .. => .client
  | dbinfo which =>
    if which.bytes.head? = some 99 ∨ which.bytes.head? = some 67 then .client else .server

end AdmCommand

/-! ### The daemon -/

/-- A conversion of `parse_daemon_request`, with the length of the array that a string goes to. -/
structure ScanField where
  conv : Conv
  size : Nat
  deriving DecidableEq, Repr

namespace ScanField

/-- `tmp`. -/
def tmp : ScanField := ⟨.str, 256⟩

/-- `partner_ip`, and the arrays of length `DISK_NAME`. -/
def name : ScanField := ⟨.str, 64⟩

def int : ScanField := ⟨.int, 0⟩

def ulong : ScanField := ⟨.ulong, 0⟩

end ScanField

open ScanField in
/-- The format of the `sscanf` of a case; four lists and `z` scan nothing. -/
def formatOf (letter : UInt8) : Option (List ScanField) :=
  if letter = 97 ∨ letter = 98 then some [tmp, int, int]
  else if letter = 99 then some [tmp, name, ulong, ulong]
  else if letter = 101 ∨ letter = 102 ∨ letter = 105 ∨ letter = 106 ∨ letter = 122 then some []
  else if letter = 103 then some [tmp, ulong, ulong]
  else if letter = 109 ∨ letter = 107 ∨ letter = 111 ∨ letter = 114 ∨ letter = 110 ∨ letter = 108
  then some [tmp, int]
  else if letter = 115 then some [tmp, name, int]
  else if letter = 112 then some [tmp, name, ulong, name, ulong, ulong, ulong]
  else if letter = 120 ∨ letter = 121 then some [tmp, int, int, name, ulong, ulong, ulong]
  else none

/-- What `parse_daemon_request` found: the case, and the values stored by its `sscanf`. -/
structure AdmRequest where
  letter : UInt8
  fields : List ScanField
  values : List Value
  deriving DecidableEq, Repr

/-- `parse_daemon_request` up to the action of the case. -/
def parseDaemonRequest (cmd : List UInt8) : Option AdmRequest :=
  cmd.head?.bind fun letter =>
    (formatOf letter).map fun fields => ⟨letter, fields, scan (fields.map ScanField.conv) cmd⟩

/-- Every string fits its array with its terminator. -/
def AdmRequest.StringsFit (r : AdmRequest) : Prop :=
  ∀ p ∈ r.fields.zip r.values, ∀ s, p.2 = .str s → s.length < p.1.size

/-! ### Agreement -/

/-- `sizeof(buf)` in `ebdradm`. -/
def admBufLen : Nat := 200

namespace AdmCommand

/-- The values that the command's scan is to store. -/
def values (c : AdmCommand) : List Value :=
  match c with
  | listps _ | listpc _ | listrs _ | listrc _ | dbinfo _ => []
  | _ => .str c.line.word.bytes :: c.line.args.map Arg.value

/-- The line fits `buf`, goes to the daemon that the command is for, and is scanned as the same option
with the same values, in arrays that are long enough. -/
structure Agrees (c : AdmCommand) : Prop where
  fits : c.line.text.length < admBufLen
  fifo : c.fifo = c.meantFor
  decoded : ∃ r, parseDaemonRequest c.line.text = some r ∧ r.letter = c.letter ∧
    r.values = c.values ∧ r.StringsFit

/-- The fields that the daemon has for the arguments. -/
def argFields (c : AdmCommand) : List ScanField := ((formatOf c.letter).getD []).tail

/-- The command is not `dbinfo`, the line is short enough, every string has 1 to 63 characters, and
every number fits the type it is read into. -/
structure Ok (c : AdmCommand) : Prop where
  notDbinfo : ∀ which, c ≠ .dbinfo which
  short : c.line.text.length < admBufLen
  words : ∀ w, .word w ∈ c.line.args → w.bytes.length < 64
  fits : List.Forall₂ (fun f a => Fits f.conv a) c.argFields c.line.args

/-- The daemon's format for a command: one field for the word and one for each argument, or none. -/
inductive Scanned (c : AdmCommand) : Prop where
  | line (format : formatOf c.letter = some (.tmp :: c.argFields))
      (kinds : List.Forall₂ (fun f a => Matches f.conv a) c.argFields c.line.args)
      (values : c.values = .str c.line.word.bytes :: c.line.args.map Arg.value)
  | nothing (format : formatOf c.letter = some []) (values : c.values = [])
      (args : c.line.args = [])

theorem scanned (c : AdmCommand) : c.Scanned := by
  cases c with
  | listps _ => exact .nothing rfl rfl rfl
  | listpc _ => exact .nothing rfl rfl rfl
  | listrs _ => exact .nothing rfl rfl rfl
  | listrc _ => exact .nothing rfl rfl rfl
  | dbinfo _ => exact .nothing rfl rfl rfl
  | _ => exact .line rfl (by repeat constructor) rfl

theorem head_word (c : AdmCommand) : c.line.word.bytes.head? = some c.letter := by
  cases c <;> rfl

theorem word_ne_nil (c : AdmCommand) : c.line.word.bytes ≠ [] := by
  intro h
  have hhead := c.head_word
  rw [h] at hhead
  cases hhead

theorem head_text (c : AdmCommand) : c.line.text.head? = some c.letter := by
  unfold Line.text
  rw [List.head?_append_of_ne_nil _ c.word_ne_nil, c.head_word]

theorem word_length (c : AdmCommand) : c.line.word.bytes.length < 256 := by
  cases c <;> exact of_decide_eq_true rfl

theorem delimited_tail (c : AdmCommand) : Delimited c.line.tail := by
  intro b hb
  cases c <;> cases hb <;> rfl

theorem fifo_iff (c : AdmCommand) : c.fifo = c.meantFor ↔ ∀ which, c ≠ .dbinfo which := by
  cases c with
  | dbinfo which =>
    have hne : (dbinfo which).fifo ≠ (dbinfo which).meantFor := by
      unfold fifo meantFor
      dsimp only
      split <;> decide
    exact iff_of_false hne fun h => h which rfl
  | _ => exact iff_of_true rfl nofun

theorem argFields_size (c : AdmCommand) : ∀ f ∈ c.argFields, f.conv = .str → f.size = 64 := by
  cases c <;> exact of_decide_eq_true rfl

theorem strings_iff {fs : List ScanField} {args : List Arg}
    (hsize : ∀ f ∈ fs, f.conv = .str → f.size = 64)
    (hm : List.Forall₂ (fun f a => Matches f.conv a) fs args) :
    (∀ p ∈ fs.zip (args.map Arg.value), ∀ s, p.2 = .str s → s.length < p.1.size) ↔
      ∀ w, .word w ∈ args → w.bytes.length < 64 := by
  induction hm with
  | nil => simp
  | @cons f a fs args hfirst _ ih =>
    have ih := ih fun g hg => hsize g (List.mem_cons_of_mem f hg)
    have hf := hsize f (List.mem_cons_self ..)
    rw [List.map_cons, List.zip_cons_cons, List.forall_mem_cons, ih]
    dsimp only
    have hhead : (∀ s, a.value = .str s → s.length < f.size) ↔
        ∀ w, .word w = a → w.bytes.length < 64 := by
      cases a with
      | word w =>
        have hconv : f.conv = .str := by
          cases hc : f.conv with
          | str => rfl
          | int =>
            rw [hc] at hfirst
            exact absurd hfirst id
          | ulong =>
            rw [hc] at hfirst
            exact absurd hfirst id
        simp [Arg.value, hf hconv]
      | number d => simp [Arg.value]
    rw [hhead]
    constructor
    · rintro ⟨h1, h2⟩ w hw
      obtain rfl | hw := List.mem_cons.mp hw
      · exact h1 w rfl
      · exact h2 w hw
    · intro h
      exact ⟨fun w hw => h w (hw ▸ List.mem_cons_self ..),
        fun w hw => h w (List.mem_cons_of_mem a hw)⟩

theorem stringsFit_iff (c : AdmCommand)
    (hm : List.Forall₂ (fun f a => Matches f.conv a) c.argFields c.line.args) :
    AdmRequest.StringsFit ⟨c.letter, .tmp :: c.argFields,
        .str c.line.word.bytes :: c.line.args.map Arg.value⟩ ↔
      ∀ w, .word w ∈ c.line.args → w.bytes.length < 64 := by
  unfold AdmRequest.StringsFit
  dsimp only
  rw [List.zip_cons_cons, List.forall_mem_cons, strings_iff c.argFields_size hm]
  apply and_iff_right
  rintro s hs
  rw [← Value.str.inj hs]
  exact c.word_length

theorem scan_line (l : Line) (hne : l.word.bytes ≠ []) (htail : Delimited l.tail) {fs : List ScanField}
    (hm : List.Forall₂ (fun f a => Matches f.conv a) fs l.args) :
    scan (.str :: fs.map ScanField.conv) l.text = .str l.word.bytes :: l.args.map Arg.value ↔
      List.Forall₂ (fun f a => Fits f.conv a) fs l.args := by
  have hm' : List.Forall₂ Matches (.str :: fs.map ScanField.conv) (.word l.word :: l.args) :=
    .cons trivial (List.forall₂_map_left_iff.mpr hm)
  have hscan := scan_print_iff hm' htail
  rw [print_cons, scan_blank, List.forall₂_cons, List.forall₂_map_left_iff] at hscan
  exact hscan.trans (and_iff_right hne)

/-- **Encoding and decoding agree** for a command if and only if it is not `dbinfo`, its line fits the
buffer, its strings have 1 to 63 characters, and its numbers fit their types. -/
theorem agrees_iff (c : AdmCommand) : c.Agrees ↔ c.Ok := by
  have hparse : parseDaemonRequest c.line.text =
      (formatOf c.letter).map fun fields =>
        ⟨c.letter, fields, scan (fields.map ScanField.conv) c.line.text⟩ := by
    unfold parseDaemonRequest
    rw [c.head_text, Option.bind_some]
  have hdecoded : (∃ r, parseDaemonRequest c.line.text = some r ∧ r.letter = c.letter ∧
      r.values = c.values ∧ r.StringsFit) ↔
        (∀ w, .word w ∈ c.line.args → w.bytes.length < 64) ∧
          List.Forall₂ (fun f a => Fits f.conv a) c.argFields c.line.args := by
    cases c.scanned with
    | nothing format values args =>
      have hfields : c.argFields = [] := by rw [argFields, format]; rfl
      rw [hparse, format, Option.map_some, values, args, hfields]
      simp [AdmRequest.StringsFit, scan]
    | line format kinds values =>
      have hscan := scan_line c.line c.word_ne_nil c.delimited_tail kinds
      rw [hparse, format, Option.map_some, values, ← hscan, ← c.stringsFit_iff kinds]
      constructor
      · rintro ⟨r, hr, -, hvalues, hfit⟩
        have hr' := Option.some.inj hr
        rw [← hr'] at hvalues hfit
        dsimp only at hvalues
        rw [hvalues] at hfit
        exact ⟨hfit, hvalues⟩
      · rintro ⟨hfit, hvalues⟩
        refine ⟨_, rfl, rfl, hvalues, ?_⟩
        have heq : scan (ScanField.conv .tmp :: c.argFields.map ScanField.conv) c.line.text = _ := hvalues
        rw [List.map_cons, heq]
        exact hfit
  constructor
  · rintro ⟨hfits, hfifo, hdec⟩
    obtain ⟨hwords, hargs⟩ := hdecoded.mp hdec
    exact ⟨c.fifo_iff.mp hfifo, hfits, hwords, hargs⟩
  · rintro ⟨hnot, hshort, hwords, hargs⟩
    exact ⟨hshort, c.fifo_iff.mpr hnot, hdecoded.mpr ⟨hwords, hargs⟩⟩

theorem zero_not_mem_tail (c : AdmCommand) : (0 : UInt8) ∉ c.line.tail := by
  cases c <;> exact of_decide_eq_true rfl

theorem Agrees.command {c : AdmCommand} (h : c.Agrees) :
    ∃ command : Command, command.text = c.line.text := by
  refine ⟨⟨c.line.text, ?_, ?_, le_of_lt h.fits⟩, rfl⟩
  · intro hnil
    have hhead := c.head_text
    rw [hnil] at hhead
    cases hhead
  · intro hmem
    obtain hword | hmem := List.mem_append.mp hmem
    · exact c.line.word.noNul hword
    · obtain hprint | htail := List.mem_append.mp hmem
      · exact zero_not_mem_print c.line.args hprint
      · exact c.zero_not_mem_tail htail

/-- `ebdradm --dbinfo client` goes to the server. -/
theorem dbinfo_misrouted : ¬ ∀ c : AdmCommand, c.Agrees := by
  intro hall
  have hfifo := (hall (.dbinfo (lit "client" rfl))).fifo
  revert hfifo
  decide

end AdmCommand

end Ebdr
