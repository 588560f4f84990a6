import Ebdr.Daemon.Commands
import Ebdr.Lib.CString
import Ebdr.Lib.Lines
import Mathlib.Logic.Function.Basic

/-!
# The configuration of the database

`readConfig` reads `/root/ebdr_db.conf` line by line into a buffer of 80 bytes, cuts a line of more
than one character into `tokens[20]` at blanks, colons and newlines, and copies the second token into
the variable whose key is the first. `readConfig_iff` says for which files nothing is used that is not
there, and for which files of lines `key : value` the variables are those of the last lines.
-/

namespace Ebdr

open Lines

/-- The entries of `Arr`, with the variables of 10 bytes that they point to. -/
inductive ConfigVar where
  | dbUser
  | dbPswrd
  | dbHost
  deriving DecidableEq, Repr

def ConfigVar.key : ConfigVar → List UInt8
  | dbUser => ascii "username"
  | dbPswrd => ascii "password"
  | dbHost => ascii "host"

theorem ConfigVar.key_inj {v w : ConfigVar} (h : v.key = w.key) : v = w := by
  cases v <;> cases w <;> first | rfl | exact absurd h (by decide)

/-- The static `tokens`, and the strings in the variables. -/
structure DbConfig where
  tokens : Nat → Option (List UInt8)
  vars : ConfigVar → List UInt8

/-- Static storage. -/
def DbConfig.zero : DbConfig := ⟨fun _ => none, fun _ => []⟩

/-- The delimiters `" :\\n"`. -/
def isDelim (b : UInt8) : Bool := b == 32 || b == 58 || b == 10

/-- The loop over `strtok` from `tokens[i]` on, which has a number of slots. -/
def fillTokens (i : Nat) (s : List UInt8) (tokens : Nat → Option (List UInt8)) :
    Nat → Option (Nat → Option (List UInt8))
  | 0 => none
  | slots + 1 =>
    match strtok isDelim s with
    | none => some (Function.update tokens i none)
    | some (token, rest) => fillTokens (i + 1) rest (Function.update tokens i (some token)) slots

/-- The loop body of `keyVar`: `strcmp` looks at the key, and `strcpy` at the value. -/
def keyVarStep (key var : Option (List UInt8)) (vars : ConfigVar → List UInt8) (v : ConfigVar) :
    Option (ConfigVar → List UInt8) :=
  key.bind fun k =>
    if v.key = k then
      var.bind fun t => if t.length < 10 then some (Function.update vars v t) else none
    else some vars

/-- `keyVar`. -/
def keyVar (vars : ConfigVar → List UInt8) (key var : Option (List UInt8)) :
    Option (ConfigVar → List UInt8) :=
  [.dbUser, .dbPswrd, .dbHost].foldlM (keyVarStep key var) vars

/-- The body of the loop over `fgets`. -/
def readLine (c : DbConfig) (line : List UInt8) : Option DbConfig :=
  let s := CString.text line
  if 1 < s.length then
    (fillTokens 0 s c.tokens 20).bind fun tokens =>
      (keyVar c.vars (tokens 0) (tokens 1)).map fun vars => ⟨tokens, vars⟩
  else some c

/-- `readConfig` on the contents of the file: `line` has 80 bytes. -/
def readConfig (c : DbConfig) (file : List UInt8) : Option DbConfig := (pieces 78 file).foldlM readLine c

/-! ### One line -/

theorem fillTokens_eq (slots i : Nat) (s : List UInt8) (tokens : Nat → Option (List UInt8)) :
    fillTokens i s tokens slots =
      if (words isDelim s).length < slots then
        some fun j => if j < i ∨ i + (words isDelim s).length < j then tokens j
          else (words isDelim s)[j - i]?
      else none := by
  induction slots generalizing i s tokens with
  | zero => rfl
  | succ slots ih =>
    have hwords : words isDelim s = _ := words_of_strtok s
    rw [fillTokens]
    cases hs : strtok isDelim s with
    | none =>
      rw [hs] at hwords
      dsimp only at hwords ⊢
      rw [hwords, List.length_nil, if_pos (Nat.succ_pos slots), Option.some_inj]
      funext j
      by_cases hj : j = i
      · rw [hj, Function.update_self, if_neg (by omega), List.getElem?_nil]
      · rw [Function.update_of_ne hj, if_pos (by omega)]
    | some r =>
      obtain ⟨token, rest⟩ := r
      rw [hs] at hwords
      dsimp only at hwords ⊢
      rw [ih, hwords, List.length_cons]
      by_cases hlt : (words isDelim rest).length < slots
      · rw [if_pos hlt, if_pos (by omega), Option.some_inj]
        funext j
        by_cases hj : j = i
        · rw [hj, if_pos (by omega), Function.update_self, if_neg (by omega), Nat.sub_self,
            List.getElem?_cons_zero]
        · rw [Function.update_of_ne hj]
          by_cases hout : j < i ∨ i + ((words isDelim rest).length + 1) < j
          · rw [if_pos hout, if_pos (by omega)]
          · have hsub : j - i = j - (i + 1) + 1 := by omega
            rw [if_neg hout, if_neg (by omega), hsub, List.getElem?_cons_succ]
      · rw [if_neg hlt, if_neg (by omega)]

/-- The key and the value that a line gives, if it is looked at. -/
def lineWords (line : List UInt8) : List (List UInt8) := words isDelim (CString.text line)

/-- A line is skipped, or it has a token and no more than `tokens` has slots for before the end mark,
and for a known key it has a value that its variable can hold. -/
def LineOk (line : List UInt8) : Prop :=
  1 < (CString.text line).length →
    0 < (lineWords line).length ∧ (lineWords line).length < 20 ∧
      ∀ v : ConfigVar, (lineWords line)[0]? = some v.key →
        ∃ t, (lineWords line)[1]? = some t ∧ t.length < 10

/-- The variables after a line. -/
def assign (line : List UInt8) (vars : ConfigVar → List UInt8) : ConfigVar → List UInt8 := fun v =>
  if 1 < (CString.text line).length ∧ (lineWords line)[0]? = some v.key then
    ((lineWords line)[1]?).getD (vars v)
  else vars v

theorem keyVarStep_other {v : ConfigVar} {k : List UInt8} (h : v.key ≠ k)
    (var : Option (List UInt8)) (vars : ConfigVar → List UInt8) :
    keyVarStep (some k) var vars v = some vars := if_neg h

theorem keyVar_key (vars : ConfigVar → List UInt8) (v : ConfigVar) (var : Option (List UInt8)) :
    keyVar vars (some v.key) var =
      var.bind fun t => if t.length < 10 then some (Function.update vars v t) else none := by
  have hother : ∀ w ≠ v, ∀ vars, keyVarStep (some v.key) var vars w = some vars :=
    fun w hw vars => keyVarStep_other (fun h => hw (ConfigVar.key_inj h)) var vars
  have hself : keyVarStep (some v.key) var vars v =
      var.bind fun t => if t.length < 10 then some (Function.update vars v t) else none := if_pos rfl
  cases v with
  | dbUser => simp [keyVar, List.foldlM_cons, hself, hother .dbPswrd, hother .dbHost]
  | dbPswrd => simp [keyVar, List.foldlM_cons, hself, hother .dbUser, hother .dbHost]
  | dbHost => simp [keyVar, List.foldlM_cons, hself, hother .dbUser, hother .dbPswrd]

theorem keyVar_other {k : List UInt8} (h : ∀ v : ConfigVar, v.key ≠ k)
    (vars : ConfigVar → List UInt8) (var : Option (List UInt8)) :
    keyVar vars (some k) var = some vars := by
  simp [keyVar, List.foldlM_cons, keyVarStep_other (h _)]

theorem fillTokens_words {s : List UInt8} (h0 : 0 < (words isDelim s).length)
    (h20 : (words isDelim s).length < 20) (old : Nat → Option (List UInt8)) :
    ∃ tokens, fillTokens 0 s old 20 = some tokens ∧ tokens 0 = (words isDelim s)[0]? ∧
      tokens 1 = (words isDelim s)[1]? := by
  refine ⟨_, (fillTokens_eq 20 0 s old).trans (if_pos h20), ?_, ?_⟩
  · exact if_neg (by omega)
  · exact if_neg (by omega)

theorem readLine_some {line : List UInt8} (h : LineOk line) (c : DbConfig) :
    ∃ tokens, readLine c line = some ⟨tokens, assign line c.vars⟩ := by
  unfold readLine
  dsimp only
  by_cases hlen : 1 < (CString.text line).length
  · rw [if_pos hlen]
    obtain ⟨h0, h20, hkey⟩ := h hlen
    obtain ⟨tokens, hfill, htok0, htok1⟩ := fillTokens_words h0 h20 c.tokens
    obtain ⟨k, hk⟩ : ∃ k, (lineWords line)[0]? = some k := ⟨_, List.getElem?_eq_getElem h0⟩
    refine ⟨tokens, ?_⟩
    rw [hfill, Option.bind_some, htok0, htok1]
    show (keyVar c.vars (lineWords line)[0]? (lineWords line)[1]?).map _ = _
    rw [hk]
    by_cases hknown : ∃ v : ConfigVar, v.key = k
    · obtain ⟨v, rfl⟩ := hknown
      obtain ⟨t, ht, hfit⟩ := hkey v hk
      rw [keyVar_key, ht, Option.bind_some, if_pos hfit, Option.map_some, Option.some_inj]
      congr 1
      funext w
      unfold assign
      rw [hk, ht]
      by_cases hw : w = v
      · rw [hw, Function.update_self, if_pos ⟨hlen, rfl⟩]
        rfl
      · rw [Function.update_of_ne hw, if_neg]
        exact fun heq => hw (ConfigVar.key_inj (Option.some.inj heq.2)).symm
    · rw [not_exists] at hknown
      rw [keyVar_other hknown, Option.map_some, Option.some_inj]
      congr 1
      funext w
      unfold assign
      rw [hk, if_neg]
      exact fun heq => hknown w (Option.some.inj heq.2).symm
  · refine ⟨c.tokens, ?_⟩
    rw [if_neg hlen, Option.some_inj]
    have hsame : assign line c.vars = c.vars := by
      funext w
      exact if_neg fun heq => hlen heq.1
    rw [hsame]

theorem readLine_none {line : List UInt8} (h : ¬ LineOk line) (c : DbConfig) :
    readLine c line = none := by
  unfold LineOk at h
  rw [Classical.not_imp] at h
  obtain ⟨hlen, h⟩ := h
  unfold readLine
  dsimp only
  rw [if_pos hlen]
  by_cases h20 : (lineWords line).length < 20
  · by_cases h0 : 0 < (lineWords line).length
    · obtain ⟨tokens, hfill, htok0, htok1⟩ := fillTokens_words h0 h20 c.tokens
      have hkey : ∃ v : ConfigVar, (lineWords line)[0]? = some v.key ∧
          ¬ ∃ t, (lineWords line)[1]? = some t ∧ t.length < 10 := by
        by_contra hall
        refine h ⟨h0, h20, fun v hv => ?_⟩
        by_contra hbad
        exact hall ⟨v, hv, hbad⟩
      obtain ⟨v, hv, hbad⟩ := hkey
      rw [hfill, Option.bind_some, htok0, htok1]
      show (keyVar c.vars (lineWords line)[0]? (lineWords line)[1]?).map _ = _
      rw [hv, keyVar_key]
      cases ht : (lineWords line)[1]? with
      | none => rfl
      | some t => rw [Option.bind_some, if_neg fun hfit => hbad ⟨t, ht, hfit⟩, Option.map_none]
    · -- without a token the key is absent
      have hnil : words isDelim (CString.text line) = [] := List.length_eq_zero_iff.mp (by
        unfold lineWords at h0
        omega)
      have hfill := (fillTokens_eq 20 0 (CString.text line) c.tokens).trans (if_pos h20)
      rw [hfill, Option.bind_some]
      dsimp only
      rw [hnil]
      rfl
  · have hfill := (fillTokens_eq 20 0 (CString.text line) c.tokens).trans (if_neg h20)
    rw [hfill, Option.bind_none]

/-! ### A file -/

theorem foldlM_readLine_some {lines : List (List UInt8)} (h : ∀ line ∈ lines, LineOk line)
    (c : DbConfig) : ∃ tokens, lines.foldlM readLine c =
      some ⟨tokens, lines.foldl (fun vars line => assign line vars) c.vars⟩ := by
  induction lines generalizing c with
  | nil => exact ⟨c.tokens, rfl⟩
  | cons line lines ih =>
    obtain ⟨tokens, hline⟩ := readLine_some (h line (List.mem_cons_self ..)) c
    obtain ⟨tokens', hrest⟩ := ih (fun l hl => h l (List.mem_cons_of_mem line hl))
      ⟨tokens, assign line c.vars⟩
    refine ⟨tokens', ?_⟩
    rw [List.foldlM_cons, hline]
    exact hrest

/-- **When `readConfig` returns.** -/
theorem readConfig_isSome_iff (c : DbConfig) (file : List UInt8) :
    (readConfig c file).isSome ↔ ∀ line ∈ pieces 78 file, LineOk line := by
  unfold readConfig
  generalize pieces 78 file = lines
  constructor
  · induction lines generalizing c with
    | nil => exact fun _ => nofun
    | cons line lines ih =>
      intro h
      rw [List.foldlM_cons] at h
      have hline : LineOk line := by
        by_contra hbad
        rw [readLine_none hbad] at h
        cases h
      obtain ⟨tokens, heq⟩ := readLine_some hline c
      rw [heq] at h
      exact List.forall_mem_cons.mpr ⟨hline, ih _ h⟩
  · intro h
    obtain ⟨tokens, heq⟩ := foldlM_readLine_some h c
    rw [heq]
    rfl

/-! ### Files of lines `key : value` -/

/-- A token: no delimiter and no zero byte in it. -/
def IsToken (w : List UInt8) : Prop := w ≠ [] ∧ ∀ b ∈ w, isDelim b = false ∧ b ≠ 0

/-- A line `key : value` that the buffer holds without its newline. -/
structure ConfigLine where
  key : List UInt8
  value : List UInt8
  keyToken : IsToken key
  valueToken : IsToken value
  short : key.length + 3 + value.length < 80

namespace ConfigLine

def text (l : ConfigLine) : List UInt8 := l.key ++ 32 :: 58 :: 32 :: l.value

/-- The value fits its variable, if the key has one. -/
def Fits (l : ConfigLine) : Prop := ∀ v : ConfigVar, l.key = v.key → l.value.length < 10

/-- The variables with the value of the line. -/
def store (l : ConfigLine) (vars : ConfigVar → List UInt8) : ConfigVar → List UInt8 := fun v =>
  if l.key = v.key then l.value else vars v

/-- What a piece of the file has to do for the line. -/
def ActsAs (l : ConfigLine) (s : List UInt8) : Prop :=
  (LineOk s ↔ l.Fits) ∧ ∀ vars, assign s vars = l.store vars

theorem length_text (l : ConfigLine) : l.text.length = l.key.length + 3 + l.value.length := by
  simp [text]
  omega

theorem newline_not_mem (l : ConfigLine) : (10 : UInt8) ∉ l.text := by
  have hno : ∀ w, IsToken w → (10 : UInt8) ∉ w := fun w hw h => absurd (hw.2 10 h).1 (by decide)
  simp [text, hno _ l.keyToken, hno _ l.valueToken]

theorem zero_not_mem (l : ConfigLine) : (0 : UInt8) ∉ l.text := by
  have hno : ∀ w, IsToken w → (0 : UInt8) ∉ w := fun w hw h => (hw.2 0 h).2 rfl
  simp [text, hno _ l.keyToken, hno _ l.valueToken]

theorem words_text (l : ConfigLine) : words isDelim l.text = [l.key, l.value] := by
  have hkey := fun b hb => (l.keyToken.2 b hb).1
  have hvalue := fun b hb => (l.valueToken.2 b hb).1
  unfold text
  rw [words_word_append l.keyToken.1 hkey (by decide), words_cons (by decide),
    words_cons (by decide), words_word l.valueToken.1 hvalue]

theorem words_text_newline (l : ConfigLine) :
    words isDelim (l.text ++ [10]) = [l.key, l.value] := by
  have hkey := fun b hb => (l.keyToken.2 b hb).1
  have hvalue := fun b hb => (l.valueToken.2 b hb).1
  unfold text
  rw [List.append_assoc, List.cons_append, List.cons_append, List.cons_append,
    words_word_append l.keyToken.1 hkey (by decide), words_cons (by decide),
    words_cons (by decide), words_word_append l.valueToken.1 hvalue (by decide), words_nil]

theorem actsAs_of_words {l : ConfigLine} {s : List UInt8} (h0 : (0 : UInt8) ∉ s)
    (hlen : 1 < s.length) (hwords : words isDelim s = [l.key, l.value]) : l.ActsAs s := by
  have htext : CString.text s = s := by
    apply List.takeWhile_eq_self_iff.mpr
    intro b hb
    rw [bne_iff_ne]
    rintro rfl
    exact h0 hb
  have hline : lineWords s = [l.key, l.value] := by
    unfold lineWords
    rw [htext, hwords]
  constructor
  · unfold LineOk Fits
    rw [htext, hline]
    constructor
    · intro h v hv
      obtain ⟨-, -, hall⟩ := h hlen
      obtain ⟨t, ht, hfit⟩ := hall v (congrArg some hv)
      rw [Option.some.inj ht]
      exact hfit
    · intro h _
      have h20 : 2 < 20 := by decide
      exact ⟨Nat.succ_pos 1, h20, fun v hv => ⟨l.value, rfl, h v (Option.some.inj hv)⟩⟩
  · intro vars
    funext v
    unfold assign store
    rw [htext, hline]
    by_cases hv : l.key = v.key
    · rw [if_pos ⟨hlen, congrArg some hv⟩, if_pos hv]
      rfl
    · rw [if_neg fun h => hv (Option.some.inj h.2), if_neg hv]

theorem actsAs_text (l : ConfigLine) : l.ActsAs l.text :=
  actsAs_of_words l.zero_not_mem (by rw [length_text]; omega) l.words_text

theorem actsAs_text_newline (l : ConfigLine) : l.ActsAs (l.text ++ [10]) := by
  refine actsAs_of_words ?_ ?_ l.words_text_newline
  · rw [List.mem_append, not_or]
    exact ⟨l.zero_not_mem, by decide⟩
  · rw [List.length_append, length_text]
    omega

end ConfigLine

/-- A file of lines; the last one may have no newline. -/
def configFile (lines : List ConfigLine) (last : Option ConfigLine) : List UInt8 :=
  lines.flatMap (fun l => l.text ++ [10]) ++ (last.map ConfigLine.text).getD []

/-- The value on the last line with the key of `v`, or else the one before. -/
def lastValue (lines : List ConfigLine) (v : ConfigVar) (old : List UInt8) : List UInt8 :=
  ((lines.filter fun l => decide (l.key = v.key)).getLast?.map ConfigLine.value).getD old

/-- Reading the file returns, with each variable that of the last line with its key. -/
def Faithful (c : DbConfig) (lines : List ConfigLine) (last : Option ConfigLine) : Prop :=
  ∃ c', readConfig c (configFile lines last) = some c' ∧
    ∀ v, c'.vars v = lastValue (lines ++ last.toList) v (c.vars v)

theorem pieces_configLine (l : ConfigLine) (rest : List UInt8) :
    ∃ first, pieces 78 (l.text ++ 10 :: rest) = first ++ pieces 78 rest ∧
      ((∀ s ∈ first, LineOk s) ↔ l.Fits) ∧
      ∀ vars, first.foldl (fun vars line => assign line vars) vars = l.store vars := by
  have hle : l.text.length ≤ 78 + 1 := by
    have := l.short
    rw [l.length_text]
    omega
  have hne : l.text ≠ [] := by
    intro h
    have := l.length_text
    rw [h, List.length_nil] at this
    omega
  have hpieces := pieces_line l.newline_not_mem hne hle rest
  by_cases hlt : l.text.length < 78 + 1
  · rw [if_pos hlt] at hpieces
    refine ⟨[l.text ++ [10]], hpieces, ?_, l.actsAs_text_newline.2⟩
    rw [List.forall_mem_singleton]
    exact l.actsAs_text_newline.1
  · rw [if_neg hlt] at hpieces
    -- the newline alone is a line of one character
    have hskip : ¬ 1 < (CString.text [10]).length := by decide
    refine ⟨[l.text, [10]], hpieces, ?_, fun vars => ?_⟩
    · rw [List.forall_mem_cons, List.forall_mem_singleton, l.actsAs_text.1]
      exact and_iff_left fun h => absurd h hskip
    · rw [List.foldl_cons, List.foldl_cons, List.foldl_nil, l.actsAs_text.2]
      funext v
      exact if_neg fun h => hskip h.1

theorem pieces_lastLine (l : ConfigLine) : pieces 78 l.text = [l.text] := by
  refine pieces_end l.newline_not_mem ?_ ?_
  · intro h
    have := l.length_text
    rw [h, List.length_nil] at this
    omega
  · have := l.short
    rw [l.length_text]
    omega

theorem pieces_configFile (lines : List ConfigLine) (last : Option ConfigLine) :
    ((∀ s ∈ pieces 78 (configFile lines last), LineOk s) ↔
      ∀ l ∈ lines ++ last.toList, l.Fits) ∧
    ∀ vars, (pieces 78 (configFile lines last)).foldl (fun vars line => assign line vars) vars =
      (lines ++ last.toList).foldl (fun vars l => l.store vars) vars := by
  induction lines with
  | nil =>
    cases last with
    | none =>
      have hnil : pieces 78 (configFile [] none) = [] := by
        rw [show configFile [] none = [] from rfl, pieces]
      rw [hnil]
      exact ⟨iff_of_true (by simp) (by simp), fun _ => rfl⟩
    | some l =>
      rw [show configFile [] (some l) = l.text from rfl, pieces_lastLine]
      refine ⟨?_, l.actsAs_text.2⟩
      rw [List.forall_mem_singleton, l.actsAs_text.1]
      exact List.forall_mem_singleton.symm
  | cons l lines ih =>
    have hfile : configFile (l :: lines) last = l.text ++ 10 :: configFile lines last := by
      simp [configFile]
    obtain ⟨first, hpieces, hok, hassign⟩ := pieces_configLine l (configFile lines last)
    rw [hfile, hpieces, List.cons_append]
    refine ⟨?_, fun vars => ?_⟩
    · rw [List.forall_mem_append, hok, ih.1, List.forall_mem_cons]
    · rw [List.foldl_append, hassign, ih.2, List.foldl_cons]

theorem foldl_store (lines : List ConfigLine) (vars : ConfigVar → List UInt8) (v : ConfigVar) :
    lines.foldl (fun vars l => l.store vars) vars v = lastValue lines v (vars v) := by
  induction lines generalizing vars with
  | nil => rfl
  | cons l lines ih =>
    rw [List.foldl_cons, ih]
    unfold lastValue ConfigLine.store
    rw [List.filter_cons]
    by_cases hv : l.key = v.key
    · rw [if_pos hv, if_pos (decide_eq_true hv), List.getLast?_cons]
      cases (lines.filter fun l => decide (l.key = v.key)).getLast? <;> rfl
    · rw [if_neg hv, if_neg (by rwa [decide_eq_true_iff])]

/-- **Which files are read, and which are read faithfully.** -/
theorem readConfig_iff (c : DbConfig) :
    (∀ file, (readConfig c file).isSome ↔ ∀ line ∈ pieces 78 file, LineOk line) ∧
    ∀ lines last, Faithful c lines last ↔ ∀ l ∈ lines ++ last.toList, l.Fits := by
  refine ⟨readConfig_isSome_iff c, fun lines last => ?_⟩
  obtain ⟨hok, hassign⟩ := pieces_configFile lines last
  constructor
  · rintro ⟨c', hread, -⟩
    apply hok.mp
    apply (readConfig_isSome_iff c _).mp
    rw [hread]
    rfl
  · intro h
    obtain ⟨tokens, hread⟩ := foldlM_readLine_some (hok.mpr h) c
    refine ⟨_, hread, fun v => ?_⟩
    dsimp only
    rw [hassign, foldl_store]

/-- A line of delimiters has no token, and the value of this `username` is longer than its variable. -/
theorem readConfig_fails :
    readConfig .zero (ascii ":" ++ [10]) = none ∧
      readConfig .zero (ascii "username : administrator" ++ [10]) = none := by
  have hfails : ∀ t : List UInt8, (10 : UInt8) ∉ t → t ≠ [] → t.length < 79 →
      ¬ LineOk (t ++ [10]) → readConfig .zero (t ++ [10]) = none := by
    intro t h10 hne hlt hbad
    unfold readConfig
    rw [pieces_line h10 hne (Nat.le_of_lt hlt), if_pos hlt, List.foldlM_cons, readLine_none hbad]
    rfl
  constructor
  · refine hfails _ (by decide) (by decide) (by decide) fun h => ?_
    exact absurd (h (by decide)).1 (by decide)
  · refine hfails _ (by decide) (by decide) (by decide) fun h => ?_
    obtain ⟨t, ht, hfit⟩ := (h (by decide)).2.2 .dbUser (by decide)
    have hvalue : (lineWords (ascii "username : administrator" ++ [10]))[1]? =
        some (ascii "administrator") := by decide
    rw [hvalue] at ht
    rw [← Option.some.inj ht] at hfit
    exact absurd hfit (by decide)

end Ebdr
