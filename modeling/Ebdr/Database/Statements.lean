import Ebdr.Daemon.Commands
import Ebdr.Lib.Sql

/-!
# The SQL statements

Eight functions of `atdr_db.c` print a statement with the values of a row into a local buffer `str`,
of 100 or 200 bytes, and hand it to `mysql_query`; each prints `use` with the database into the same
buffer before. No length is checked. `fits_stored_iff` says when the text fits the buffer and when the
row holds the values passed.
-/

namespace Ebdr

open Sql

/-- An argument of `sprintf` with its conversion. -/
inductive FormatArg where
  | s (t : List UInt8)
  | d (n : Int)
  | lu (n : Nat)
  deriving DecidableEq, Repr

def FormatArg.text : FormatArg → List UInt8
  | s t => t
  | d n => decimal n
  | lu n => decimal n

/-- `sprintf` into a buffer; a text that does not fit with its terminator is written beyond the end. -/
def sprintf (size : Nat) (args : List FormatArg) : Option (List UInt8) :=
  let str := args.flatMap FormatArg.text
  if str.length < size then some str else none

/-- The databases of the two daemons. -/
inductive DbName where
  | ebdrdbs
  | ebdrdbc
  deriving DecidableEq, Repr

def DbName.text : DbName → List UInt8
  | ebdrdbs => ascii "ebdrdbs"
  | ebdrdbc => ascii "ebdrdbc"

/-- A call of one of the functions, with the arguments that it prints. -/
inductive SqlCall where
  | insertIntoResync (pid : Int) (targetDisk : List UInt8) (lastResyncedBit : Nat) (state : Int)
      (status : List UInt8)
  | updateIntoResync (pid : Int) (lastResyncedBit : Nat) (state : Int)
  | updateResyncState (pid state : Int) (status : List UInt8)
  | insertIntoDisk (pid : Int) (name snapName : List UInt8) (bitmapSize : Nat) (state : Int)
  | updateIntoDisk (pid : Int) (name snapName : List UInt8)
  | insertIntoPartner (pid state : Int) (ip : List UInt8) (bandwidth : Nat)
  | updateIntoPartner (pid objState : Int)
  | insertIntoRelation (role pid rid state : Int) (disk : List UInt8)
      (bitmapSize grainSize chunkSize : Nat)
  deriving DecidableEq, Repr

namespace SqlCall

/-- The size of `str`. -/
def size : SqlCall → Nat
  | insertIntoPartner .. => 200
  | insertIntoRelation .. => 200
  | _ => 100

/-- The arguments of `sprintf` after the format. -/
def args : SqlCall → List FormatArg
  | insertIntoResync pid targetDisk lastResyncedBit state status =>
    [.s (ascii "INSERT INTO resync VALUES("), .d pid, .s (ascii ",'"), .s targetDisk,
      .s (ascii "',"), .lu lastResyncedBit, .s (ascii ","), .d state, .s (ascii ",' "), .s status,
      .s (ascii "')")]
  | updateIntoResync pid lastResyncedBit state =>
    [.s (ascii "UPDATE resync SET last_resynced_bit = "), .lu lastResyncedBit, .s (ascii " "),
      .s (ascii "WHERE pid = "), .d pid, .s (ascii " AND state = "), .d state]
  | updateResyncState pid state status =>
    [.s (ascii "UPDATE resync SET state = "), .d state, .s (ascii " , status = '"), .s status,
      .s (ascii "' WHERE pid = "), .d pid]
  | insertIntoDisk pid name snapName bitmapSize state =>
    [.s (ascii "INSERT INTO disk VALUES("), .d pid, .s (ascii ",'"), .s name, .s (ascii "'"),
      .s (ascii ","), .s (ascii "'"), .s snapName, .s (ascii "',"), .lu bitmapSize, .s (ascii ","),
      .d state, .s (ascii ")")]
  | updateIntoDisk pid name snapName =>
    [.s (ascii "UPDATE disk SET pid = "), .d pid, .s (ascii ",snap_name = "), .s (ascii "'"),
      .s snapName, .s (ascii "'"), .s (ascii " WHERE name = "), .s (ascii "'"), .s name,
      .s (ascii "'")]
  | insertIntoPartner pid state ip bandwidth =>
    [.s (ascii "INSERT INTO partner VALUES("), .d pid, .s (ascii ","), .d state, .s (ascii ",'"),
      .s ip, .s (ascii "',"), .lu bandwidth, .s (ascii ")")]
  | updateIntoPartner pid objState =>
    [.s (ascii "UPDATE partner SET state = "), .d objState, .s (ascii " WHERE pid = "), .d pid]
  | insertIntoRelation role pid rid state disk bitmapSize grainSize chunkSize =>
    [.s (ascii "INSERT INTO relation VALUES("), .d role, .s (ascii ","), .d pid, .s (ascii ","),
      .d rid, .s (ascii ","), .d state, .s (ascii ",'"), .s disk, .s (ascii "',"), .lu bitmapSize,
      .s (ascii ","), .lu grainSize, .s (ascii ","), .lu chunkSize, .s (ascii ")")]

/-- The text handed to the second `mysql_query`. -/
def run (db : DbName) (c : SqlCall) : Option (List UInt8) :=
  (sprintf c.size [.s (ascii "use "), .s (ascii " "), .s db.text]).bind fun _ =>
    sprintf c.size c.args

/-! ### The statements as SQL -/

/-- The statement that carries the values passed. -/
def wanted : SqlCall → List Item
  | insertIntoResync pid targetDisk lastResyncedBit state status =>
    [.text (ascii "INSERT INTO resync VALUES("), .num pid, .text (ascii ","), .str targetDisk,
      .text (ascii ","), .num lastResyncedBit, .text (ascii ","), .num state, .text (ascii ","),
      .str status, .text (ascii ")")]
  | updateIntoResync pid lastResyncedBit state =>
    [.text (ascii "UPDATE resync SET last_resynced_bit = "), .num lastResyncedBit,
      .text (ascii " WHERE pid = "), .num pid, .text (ascii " AND state = "), .num state]
  | updateResyncState pid state status =>
    [.text (ascii "UPDATE resync SET state = "), .num state, .text (ascii " , status = "),
      .str status, .text (ascii " WHERE pid = "), .num pid]
  | insertIntoDisk pid name snapName bitmapSize state =>
    [.text (ascii "INSERT INTO disk VALUES("), .num pid, .text (ascii ","), .str name,
      .text (ascii ","), .str snapName, .text (ascii ","), .num bitmapSize, .text (ascii ","),
      .num state, .text (ascii ")")]
  | updateIntoDisk pid name snapName =>
    [.text (ascii "UPDATE disk SET pid = "), .num pid, .text (ascii ",snap_name = "), .str snapName,
      .text (ascii " WHERE name = "), .str name]
  | insertIntoPartner pid state ip bandwidth =>
    [.text (ascii "INSERT INTO partner VALUES("), .num pid, .text (ascii ","), .num state,
      .text (ascii ","), .str ip, .text (ascii ","), .num bandwidth, .text (ascii ")")]
  | updateIntoPartner pid objState =>
    [.text (ascii "UPDATE partner SET state = "), .num objState, .text (ascii " WHERE pid = "),
      .num pid]
  | insertIntoRelation role pid rid state disk bitmapSize grainSize chunkSize =>
    [.text (ascii "INSERT INTO relation VALUES("), .num role, .text (ascii ","), .num pid,
      .text (ascii ","), .num rid, .text (ascii ","), .num state, .text (ascii ","), .str disk,
      .text (ascii ","), .num bitmapSize, .text (ascii ","), .num grainSize, .text (ascii ","),
      .num chunkSize, .text (ascii ")")]

/-- The statement that is printed: `insert_into_resync` has a blank before the status. -/
def printed : SqlCall → List Item
  | insertIntoResync pid targetDisk lastResyncedBit state status =>
    (insertIntoResync pid targetDisk lastResyncedBit state (32 :: status)).wanted
  | c => c.wanted

theorem flatMap_args (c : SqlCall) : c.args.flatMap FormatArg.text = render c.printed := by
  cases c <;> simp [args, printed, wanted, render, FormatArg.text, ascii, quote]

/-- The text fits its buffer with the terminator. -/
def Fits (db : DbName) (c : SqlCall) : Prop := (c.run db).isSome

/-- The `CHAR(128)` of the tables of `db_init`. -/
def charSize : Nat := 128

/-- The text fits, and the columns it is for have the values passed, in the server's strict mode or in
the other. A name to be compared with is taken like one to be stored. -/
def Stored (strict : Bool) (db : DbName) (c : SqlCall) : Prop :=
  ∃ str, c.run db = some str ∧
    readRow strict charSize (c.wanted.map Item.shape) str = some (values c.wanted)

/-- The characters of a printed number. -/
def width (n : Int) : Nat := (decimal n).length

/-- The lengths of the values leave room for the fixed text and the terminator. -/
def LengthOk : SqlCall → Prop
  | insertIntoResync pid targetDisk lastResyncedBit state status =>
    width pid + targetDisk.length + width lastResyncedBit + width state + status.length < 64
  | updateIntoResync pid lastResyncedBit state =>
    width lastResyncedBit + width pid + width state < 36
  | updateResyncState pid state status => width state + status.length + width pid < 47
  | insertIntoDisk pid name snapName bitmapSize state =>
    width pid + name.length + snapName.length + width bitmapSize + width state < 67
  | updateIntoDisk pid name snapName => width pid + snapName.length + name.length < 47
  | insertIntoPartner pid state ip bandwidth =>
    width pid + width state + ip.length + width bandwidth < 167
  | updateIntoPartner pid objState => width objState + width pid < 60
  | insertIntoRelation role pid rid state disk bitmapSize grainSize chunkSize =>
    width role + width pid + width rid + width state + disk.length + width bitmapSize +
      width grainSize + width chunkSize < 162

/-- The call is not `insert_into_resync` with a status, which is stored with a blank before it. -/
def KeepsStatus : SqlCall → Prop
  | insertIntoResync _ _ _ _ status => status = []
  | _ => True

/-- Every string can be in its column. -/
def InColumns (c : SqlCall) : Prop := ∀ s, .str s ∈ c.wanted → InCharColumn charSize s

theorem length_args (c : SqlCall) : (c.args.flatMap FormatArg.text).length < c.size ↔ c.LengthOk := by
  cases c <;> simp [args, size, LengthOk, FormatArg.text, ascii, width] <;> omega

theorem run_eq_some_iff {db : DbName} {c : SqlCall} {str : List UInt8} :
    c.run db = some str ↔ c.LengthOk ∧ render c.printed = str := by
  have huse : ∀ size, 100 ≤ size →
      sprintf size [.s (ascii "use "), .s (ascii " "), .s db.text] =
        some (ascii "use " ++ (ascii " " ++ (db.text ++ []))) := by
    intro size hsize
    refine if_pos (lt_of_lt_of_le ?_ hsize)
    cases db <;> decide
  have hsize : 100 ≤ c.size := by
    cases c <;> simp [size]
  unfold run
  rw [huse _ hsize, Option.bind_some]
  unfold sprintf
  dsimp only
  rw [Option.ite_none_right_eq_some, length_args, flatMap_args, Option.some_inj]

theorem apart_wanted (c : SqlCall) : Apart c.wanted := by
  cases c <;> simp [wanted, Apart, render, ascii, quote, Scan.isDigit]

theorem fits_iff (db : DbName) (c : SqlCall) : c.Fits db ↔ c.LengthOk := by
  unfold Fits
  rw [Option.isSome_iff_exists]
  constructor
  · rintro ⟨str, h⟩
    exact (run_eq_some_iff.mp h).1
  · intro h
    exact ⟨_, run_eq_some_iff.mpr ⟨h, rfl⟩⟩

section

variable {strict : Bool} {pid state : Int} {targetDisk status t : List UInt8} {bit : Nat}

theorem readable_insertIntoResync :
    Readable (insertIntoResync pid targetDisk bit state status).wanted ↔
      (Plain targetDisk ∧ Plain status) ∧ InColumn pid ∧ InColumn bit ∧ InColumn state := by
  simp [Readable, wanted]

theorem inColumns_insertIntoResync :
    (insertIntoResync pid targetDisk bit state status).InColumns ↔
      InCharColumn charSize targetDisk ∧ InCharColumn charSize status := by
  simp [InColumns, wanted]

theorem exists_strings
    (h : readRow strict charSize
      ((insertIntoResync pid targetDisk bit state status).wanted.map Item.shape) t =
        some (values (insertIntoResync pid targetDisk bit state status).wanted)) :
    ∃ x y, charColumn strict charSize (targetDisk ++ x) = some targetDisk ∧
      charColumn strict charSize (status ++ y) = some status ∧
      read ((insertIntoResync pid (targetDisk ++ x) bit state (status ++ y)).wanted.map Item.shape) t =
        some (values (insertIntoResync pid (targetDisk ++ x) bit state (status ++ y)).wanted) := by
  obtain ⟨items, hgives, hread⟩ := exists_gives h
  simp only [wanted, List.forall₂_cons_right_iff, List.forall₂_nil_right_iff, Item.gives_text,
    Item.gives_num, Item.gives_str] at hgives
  obtain ⟨_, _, rfl, ⟨_, _, rfl, ⟨_, _, rfl, ⟨_, _, ⟨disk', rfl, hdisk⟩, ⟨_, _, rfl, ⟨_, _, rfl,
    ⟨_, _, rfl, ⟨_, _, rfl, ⟨_, _, rfl, ⟨_, _, ⟨status', rfl, hstatus⟩, ⟨_, _, rfl, rfl, rfl⟩,
      rfl⟩, rfl⟩, rfl⟩, rfl⟩, rfl⟩, rfl⟩, rfl⟩, rfl⟩, rfl⟩, rfl⟩ := hgives
  obtain ⟨x, rfl⟩ := charColumn_prefix hdisk
  obtain ⟨y, rfl⟩ := charColumn_prefix hstatus
  exact ⟨x, y, hdisk, hstatus, hread⟩

theorem dropped_blank {x y : List UInt8}
    (h : read ((insertIntoResync pid (targetDisk ++ x) bit state (status ++ y)).wanted.map Item.shape)
      (render (insertIntoResync pid targetDisk bit state status).printed) =
        some (values (insertIntoResync pid (targetDisk ++ x) bit state (status ++ y)).wanted)) :
    ((x = [32] ∧ y = []) ∨ (x = [] ∧ y = [32])) ∧ Plain (targetDisk ++ x) ∧ Plain (status ++ y) := by
  obtain ⟨hlen, hplain, -, hcount⟩ := read_spec h
  have hquote : (quote == 32) = false := rfl
  simp only [printed, wanted, render, List.count_cons, List.count_append, List.length_cons,
    List.length_append, hquote, beq_self_eq_true, if_true, Bool.false_eq_true, if_false]
    at hlen hplain hcount
  have hx : x.count 32 ≤ x.length := List.count_le_length
  have hy : y.count 32 ≤ y.length := List.count_le_length
  have hblank : ∀ z : List UInt8, z.length = 1 → z.count 32 = 1 → z = [32] := by
    intro z hz hc
    obtain ⟨b, rfl⟩ := List.length_eq_one_iff.mp hz
    rw [List.mem_singleton.mp (List.count_pos_iff.mp (show 0 < [b].count 32 by omega))]
  refine ⟨?_, hplain (by omega) _ (by simp), hplain (by omega) _ (by simp)⟩
  by_cases hzero : x.length = 0
  · exact Or.inr ⟨List.length_eq_zero_iff.mp hzero, hblank y (by omega) (by omega)⟩
  · exact Or.inl ⟨hblank x (by omega) (by omega), List.length_eq_zero_iff.mp (by omega)⟩

/-- The blank before the status is a blank too many, except where the column drops it again. -/
theorem status_eq_nil
    (h : readRow strict charSize
      ((insertIntoResync pid targetDisk bit state status).wanted.map Item.shape)
      (render (insertIntoResync pid targetDisk bit state status).printed) =
        some (values (insertIntoResync pid targetDisk bit state status).wanted)) :
    status = [] ∧ InCharColumn charSize targetDisk ∧
      Readable (insertIntoResync pid targetDisk bit state status).wanted := by
  obtain ⟨x, y, hdisk, hstatus, hread⟩ := exists_strings h
  obtain ⟨hxy, hplainDisk, hplain⟩ := dropped_blank hread
  have hx : x.head? ≠ some 37 ∧ x.head? ≠ some 95 := by
    rcases hxy with ⟨rfl, -⟩ | ⟨rfl, -⟩ <;> decide
  have hy : y.head? ≠ some 37 ∧ y.head? ≠ some 95 := by
    rcases hxy with ⟨-, rfl⟩ | ⟨-, rfl⟩ <;> decide
  have hreadable : Readable (insertIntoResync pid targetDisk bit state status).wanted := by
    rw [readable_insertIntoResync]
    exact ⟨⟨hplainDisk.of_append hx, hplain.of_append hy⟩, by simpa [wanted] using
      (read_spec hread).2.2.1⟩
  -- the strings are plain as they are printed, so they are read as they are printed
  have hprinted := read_render (apart_wanted _) (readable_insertIntoResync.mpr
    ((readable_insertIntoResync.mp hreadable).imp_left (And.imp_right Plain.blank)))
  have hsame := hread.symm.trans hprinted
  simp only [wanted, values, Item.value?, List.filterMap_cons, List.filterMap_nil, Option.some.injEq,
    List.cons.injEq, Value.str.injEq, true_and, and_true] at hsame
  obtain ⟨hx', hy'⟩ := hsame
  obtain rfl : x = [] := List.append_right_eq_self.mp hx'
  rw [List.append_nil] at hdisk
  refine ⟨?_, charColumn_eq_self_iff.mp hdisk, hreadable⟩
  -- the blank that the column dropped is the one in front
  obtain rfl : y = [32] := (hxy.resolve_left fun hleft => by simp at hleft).2
  match status, getLast_of_charColumn hstatus, hy' with
  | [], _, _ => rfl
  | b :: s, hlast, hy' =>
    have heq := congrArg List.getLast? hy'
    rw [List.getLast?_concat, List.getLast?_cons_cons] at heq
    exact absurd heq.symm hlast

theorem readRow_insertIntoResync_nil
    (h : Readable (insertIntoResync pid targetDisk bit state []).wanted)
    (hdisk : InCharColumn charSize targetDisk) :
    readRow strict charSize ((insertIntoResync pid targetDisk bit state []).wanted.map Item.shape)
      (render (insertIntoResync pid targetDisk bit state []).printed) =
        some (values (insertIntoResync pid targetDisk bit state []).wanted) := by
  have hprinted := read_render (apart_wanted _) (readable_insertIntoResync.mpr
    ((readable_insertIntoResync.mp h).imp_left (And.imp_right Plain.blank)))
  have hgives : List.Forall₂ (Item.Gives strict charSize)
      (insertIntoResync pid targetDisk bit state [32]).wanted
      (insertIntoResync pid targetDisk bit state []).wanted := by
    have hblank : charColumn strict charSize [32] = some [] := rfl
    simp [wanted, charColumn_eq_self_iff.mpr hdisk, hblank]
  exact (congrArg (Option.bind · _) hprinted).trans (mapM_column_of_gives hgives)

end

theorem readRow_printed_iff (strict : Bool) (c : SqlCall) :
    readRow strict charSize (c.wanted.map Item.shape) (render c.printed) = some (values c.wanted) ↔
      c.KeepsStatus ∧ Readable c.wanted ∧ c.InColumns := by
  cases c with
  | insertIntoResync pid targetDisk bit state status =>
    rw [inColumns_insertIntoResync]
    constructor
    · intro h
      obtain ⟨rfl, hdisk, hreadable⟩ := status_eq_nil h
      exact ⟨rfl, hreadable, hdisk, by decide⟩
    · rintro ⟨hstatus, hreadable, hdisk, -⟩
      obtain rfl : status = [] := hstatus
      exact readRow_insertIntoResync_nil hreadable hdisk
  | _ =>
    refine Iff.trans (readRow_render_iff (apart_wanted _)) ?_
    exact (and_iff_right trivial).symm

/-- **When a statement fits its buffer, and when the row holds the values passed.** -/
theorem fits_stored_iff (strict : Bool) (db : DbName) (c : SqlCall) :
    (c.Fits db ↔ c.LengthOk) ∧
      (c.Stored strict db ↔ c.LengthOk ∧ c.KeepsStatus ∧ Readable c.wanted ∧ c.InColumns) := by
  refine ⟨c.fits_iff db, ?_⟩
  unfold Stored
  constructor
  · rintro ⟨str, hrun, hread⟩
    obtain ⟨hlen, rfl⟩ := run_eq_some_iff.mp hrun
    exact ⟨hlen, (readRow_printed_iff strict c).mp hread⟩
  · rintro ⟨hlen, hcarry⟩
    exact ⟨_, run_eq_some_iff.mpr ⟨hlen, rfl⟩, (readRow_printed_iff strict c).mpr hcarry⟩

/-- A disk name of 63 characters does not fit. -/
theorem insertIntoDisk_overruns :
    ¬ (insertIntoDisk 0 (List.replicate 63 97) (ascii "-") 16384 1).Fits .ebdrdbs := by
  rw [fits_iff]
  unfold LengthOk
  decide

/-! ### Partners -/

theorem width_le_of_int {n : Int} (h1 : -2 ^ 31 ≤ n) (h2 : n < 2 ^ 31) : width n ≤ 11 := by
  have hlen : (digits n.natAbs).length ≤ 10 := (length_digits_le_iff (by decide)).mpr (by omega)
  unfold width decimal
  split
  · rw [List.length_cons]
    omega
  · omega

theorem width_le_of_ulong {n : Nat} (h : n < 2 ^ 64) : width n ≤ 20 := by
  have hlen : (digits n).length ≤ 20 := (length_digits_le_iff (by decide)).mpr (by omega)
  unfold width decimal
  rw [if_neg (by omega), Int.natAbs_natCast]
  exact hlen

theorem partner_lengthOk {pid state : Int} {ip : List UInt8} {bandwidth : Nat}
    (hpid : -2 ^ 31 ≤ pid ∧ pid < 2 ^ 31) (hstate : -2 ^ 31 ≤ state ∧ state < 2 ^ 31)
    (hip : ip.length ≤ 63) (hbandwidth : bandwidth < 2 ^ 64) :
    (insertIntoPartner pid state ip bandwidth).LengthOk ∧ (updateIntoPartner pid state).LengthOk := by
  have h1 := width_le_of_int hpid.1 hpid.2
  have h2 := width_le_of_int hstate.1 hstate.2
  have h3 := width_le_of_ulong hbandwidth
  constructor
  · show width pid + width state + ip.length + width bandwidth < 167
    omega
  · show width state + width pid < 60
    omega

end SqlCall

end Ebdr
