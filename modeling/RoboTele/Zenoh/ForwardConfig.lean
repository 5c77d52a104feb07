import RoboTele.Bytes.Words
import RoboTele.Zenoh.Forwarder
import Mathlib.Data.List.Forall2

/-!
# Topics files

A topics file has one rule for each line, and `#` starts a comment.  The rules of a file that is
read are added to those that were there.  A line that is no rule is an error with its number, and
the rules before it stay.

`LineEntry` says what a line may be.  A file is read exactly if all its lines are such lines
(`forwardConfig_exact`), and then the forwarder starts with what was read.

The two words of a forward rule are put together with a colon and cut at the first one, so a
colon in the first word moves the rest of it to the key expression.
-/

namespace RoboTele

open Words

/-- What a text is as a floating-point number. -/
inductive F64Value where
  | finite (q : ℚ)
  | infinite
  | nan
deriving DecidableEq

/-- `char::is_whitespace`. -/
def isWhitespace (c : Char) : Bool :=
  let n := c.toNat
  (9 ≤ n ∧ n ≤ 13) || n = 32 || n = 0x85 || n = 0xA0 || n = 0x1680 || (0x2000 ≤ n ∧ n ≤ 0x200A) ||
    n = 0x2028 || n = 0x2029 || n = 0x202F || n = 0x205F || n = 0x3000

/-- What is wrong with a line. -/
inductive ForwardError where
  | expectedRule (rule : String)
  | unknownMode (mode : String)
  | badKeyExpr (keyExpr : String)
  | expectedNumber (value : String)
  | outOfRange (value : String)
  | expectedLine
deriving DecidableEq

/-- An error with its line. -/
structure LineError where
  line : Nat
  text : String
  cause : ForwardError
deriving DecidableEq

namespace TopicMode

/-- The modes as they are written. -/
def parse (s : String) : Option TopicMode :=
  if s = "latest" then some .latest else if s = "reliable" then some .reliable else none

/-- How a mode is written. -/
def name : TopicMode → String
  | latest => "latest"
  | reliable => "reliable"

end TopicMode

/-- The parts before and after the first separator. -/
def splitOnce (separator : Char) : List Char → Option (List Char × List Char)
  | [] => none
  | c :: rest =>
      if c = separator then some ([], rest)
      else (splitOnce separator rest).map fun (before, after) => (c :: before, after)

/-- `<mode>:<key-expr>`. -/
def ForwardRule.parse (zenoh : KeyExprs) (s : String) : Except ForwardError ForwardRule :=
  match splitOnce ':' s.toList with
  | none => .error (.expectedRule s)
  | some (mode, keyExpr) =>
      match TopicMode.parse (String.ofList mode) with
      | none => .error (.unknownMode (String.ofList mode))
      | some mode =>
          if zenoh.isKeyExpr (String.ofList keyExpr) then
            .ok { mode, keyExpr := String.ofList keyExpr }
          else .error (.badKeyExpr (String.ofList keyExpr))

namespace ForwardConfig

/-- Nothing is forwarded. -/
def default : ForwardConfig where
  forward := []
  accept := []
  maxMbps := 2

section

variable (zenoh : KeyExprs) (parseF64 : String → Option F64Value)

/-- The cap, if the text is a number in its range. -/
def setMaxMbps (c : ForwardConfig) (value : String) : Except ForwardError ForwardConfig :=
  match parseF64 value with
  | none => .error (.expectedNumber value)
  | some (.finite mbps) =>
      if 0 ≤ mbps then .ok { c with maxMbps := mbps } else .error (.outOfRange value)
  | some _ => .error (.outOfRange value)

/-- Accept what the peer publishes on these keys. -/
def addAccept (c : ForwardConfig) (keyExpr : String) : Except ForwardError ForwardConfig :=
  if zenoh.isKeyExpr keyExpr then .ok { c with accept := c.accept ++ [keyExpr] }
  else .error (.badKeyExpr keyExpr)

/-- The line without its comment. -/
def beforeComment (line : List Char) : List Char := line.takeWhile (· ≠ '#')

/-- The words of a line before its comment. -/
def lineWords (line : List Char) : List String :=
  (words isWhitespace (trim isWhitespace (beforeComment line))).map String.ofList

/-- A line, if it is one of those that a file may have. -/
def addLine (c : ForwardConfig) (line : List Char) : Except ForwardError ForwardConfig :=
  match lineWords line with
  | [] => .ok c
  | ["forward", mode, keyExpr] =>
      (ForwardRule.parse zenoh (mode ++ ":" ++ keyExpr)).map fun rule =>
        { c with forward := c.forward ++ [rule] }
  | ["accept", keyExpr] => c.addAccept zenoh keyExpr
  | ["max-mbps", value] => c.setMaxMbps parseF64 value
  | _ => .error .expectedLine

/-- Add the rules of some lines after the first `n`, up to one that is no rule. -/
def addLines (c : ForwardConfig) (n : Nat) : List (List Char) → ForwardConfig × Option LineError
  | [] => (c, none)
  | line :: rest =>
      match c.addLine zenoh parseF64 line with
      | .ok c => addLines c (n + 1) rest
      | .error cause =>
          (c, some
            { line := n + 1
              text := String.ofList (trim isWhitespace (beforeComment line))
              cause })

/-- All lines up to the first bad one. -/
def addText (c : ForwardConfig) (text : String) : ForwardConfig × Option LineError :=
  c.addLines zenoh parseF64 0 (lines '\n' '\r' text.toList)

end

/-! ## What a line may be -/

/-- What a line adds. -/
inductive Entry where
  | forward (rule : ForwardRule)
  | accept (keyExpr : String)
  | maxMbps (mbps : ℚ)

/-- What an entry adds. -/
def Entry.add (c : ForwardConfig) : Entry → ForwardConfig
  | .forward rule => { c with forward := c.forward ++ [rule] }
  | .accept keyExpr => { c with accept := c.accept ++ [keyExpr] }
  | .maxMbps mbps => { c with maxMbps := mbps }

/-- The words of an entry. -/
inductive EntryWords (zenoh : KeyExprs) (parseF64 : String → Option F64Value) :
    Entry → List String → Prop where
  | forward {rule : ForwardRule} {mode keyExpr : String}
      (hrule : mode ++ ":" ++ keyExpr = rule.mode.name ++ ":" ++ rule.keyExpr)
      (hkey : zenoh.isKeyExpr rule.keyExpr = true) :
      EntryWords zenoh parseF64 (.forward rule) ["forward", mode, keyExpr]
  | accept {keyExpr : String} (hkey : zenoh.isKeyExpr keyExpr = true) :
      EntryWords zenoh parseF64 (.accept keyExpr) ["accept", keyExpr]
  | maxMbps {value : String} {mbps : ℚ} (hvalue : parseF64 value = some (.finite mbps))
      (hmbps : 0 ≤ mbps) : EntryWords zenoh parseF64 (.maxMbps mbps) ["max-mbps", value]

/-- A line has an entry, or none, with white space around its words and a comment. -/
inductive LineEntry (zenoh : KeyExprs) (parseF64 : String → Option F64Value) :
    Option Entry → List Char → Prop where
  | blank {body comment : List Char} (hbody : '#' ∉ body)
      (hcomment : ∀ c ∈ comment.head?, c = '#') (hspells : Spells isWhitespace [] body) :
      LineEntry zenoh parseF64 none (body ++ comment)
  | entry {body comment : List Char} (hbody : '#' ∉ body)
      (hcomment : ∀ c ∈ comment.head?, c = '#') {entry : Entry} {ws : List (List Char)}
      (hspells : Spells isWhitespace ws body)
      (hentry : EntryWords zenoh parseF64 entry (ws.map String.ofList)) :
      LineEntry zenoh parseF64 (some entry) (body ++ comment)

/-- All that it names is a key expression, and the cap is none or positive. -/
structure Valid (zenoh : KeyExprs) (c : ForwardConfig) : Prop where
  forward : ∀ rule ∈ c.forward, zenoh.isKeyExpr rule.keyExpr = true
  accept : ∀ keyExpr ∈ c.accept, zenoh.isKeyExpr keyExpr = true
  maxMbps : 0 ≤ c.maxMbps

end ForwardConfig

/-! ## Rules -/

/-- The split is at the first separator, and what stands before it holds none. -/
theorem splitOnce_eq_some_iff {separator : Char} : ∀ {l before after : List Char},
    splitOnce separator l = some (before, after) ↔
      l = before ++ separator :: after ∧ separator ∉ before
  | [], before, after => by
      refine iff_of_false (Option.some_ne_none _).symm fun h => ?_
      exact absurd h.1 (by simp)
  | c :: rest, before, after => by
      rw [splitOnce]
      by_cases hc : c = separator
      · subst hc
        rw [if_pos rfl]
        cases before with
        | nil => simp
        | cons d before =>
            refine iff_of_false (by simp) fun h => h.2 ?_
            rw [(List.cons.inj h.1).1]
            exact List.mem_cons_self
      · rw [if_neg hc, Option.map_eq_some_iff]
        constructor
        · rintro ⟨⟨before', after'⟩, hsplit, heq⟩
          obtain ⟨rfl, rfl⟩ := Prod.mk.inj heq
          obtain ⟨rfl, hbefore⟩ := splitOnce_eq_some_iff.mp hsplit
          exact ⟨rfl, fun hmem => (List.mem_cons.mp hmem).elim (fun h => hc h.symm) hbefore⟩
        · rintro ⟨hl, hbefore⟩
          cases before with
          | nil => exact absurd (List.cons.inj hl).1 hc
          | cons d before =>
              obtain ⟨rfl, hrest⟩ := List.cons.inj hl
              exact ⟨(before, after), splitOnce_eq_some_iff.mpr
                ⟨hrest, fun hmem => hbefore (List.mem_cons_of_mem _ hmem)⟩, rfl⟩

/-- A mode is spelled by its name and by nothing else. -/
theorem TopicMode.parse_eq_some_iff {s : String} {mode : TopicMode} :
    TopicMode.parse s = some mode ↔ s = mode.name := by
  rw [TopicMode.parse]
  cases mode with
  | latest =>
      split_ifs with hlatest hreliable
      · exact iff_of_true rfl hlatest
      · exact iff_of_false (by simp) hlatest
      · exact iff_of_false (by simp) hlatest
  | reliable =>
      split_ifs with hlatest hreliable
      · refine iff_of_false (by simp) fun h => ?_
        exact absurd (hlatest.symm.trans h) (by decide)
      · exact iff_of_true rfl hreliable
      · exact iff_of_false (by simp) hreliable

theorem TopicMode.colon_notMem_name : ∀ mode : TopicMode, ':' ∉ mode.name.toList
  | latest => by decide
  | reliable => by decide

/-- A rule is read off its mode, a colon and its key expression. -/
theorem ForwardRule.parse_eq_ok_iff {zenoh : KeyExprs} {s : String} {rule : ForwardRule} :
    ForwardRule.parse zenoh s = .ok rule ↔
      s = rule.mode.name ++ ":" ++ rule.keyExpr ∧ zenoh.isKeyExpr rule.keyExpr = true := by
  constructor
  · intro h
    rw [parse] at h
    split at h
    · cases h
    · next mode keyExpr hsplit =>
        split at h
        · cases h
        · next mode' hmode =>
            split_ifs at h with hkey
            obtain rfl := Except.ok.inj h
            obtain ⟨htext, -⟩ := splitOnce_eq_some_iff.mp hsplit
            refine ⟨?_, hkey⟩
            rw [← TopicMode.parse_eq_some_iff.mp hmode, ← String.toList_inj]
            simpa using htext
  · rintro ⟨rfl, hkey⟩
    have hsplit : splitOnce ':' (rule.mode.name ++ ":" ++ rule.keyExpr).toList =
        some (rule.mode.name.toList, rule.keyExpr.toList) :=
      splitOnce_eq_some_iff.mpr ⟨by simp, rule.mode.colon_notMem_name⟩
    rw [parse, hsplit]
    dsimp only
    rw [String.ofList_toList, String.ofList_toList, TopicMode.parse_eq_some_iff.mpr rfl]
    dsimp only
    rw [if_pos hkey]

namespace ForwardConfig

variable {zenoh : KeyExprs} {parseF64 : String → Option F64Value} {c c' : ForwardConfig}

/-! ## Lines -/

/-- The part before a comment is the only one without its sign that is followed by it. -/
theorem beforeComment_append {body comment : List Char} (hbody : '#' ∉ body)
    (hcomment : ∀ c ∈ comment.head?, c = '#') : beforeComment (body ++ comment) = body := by
  have hno : ∀ c ∈ body, decide (c ≠ '#') = true := fun c hc =>
    decide_eq_true fun heq => hbody (heq ▸ hc)
  rw [beforeComment, List.takeWhile_append_of_pos hno]
  cases comment with
  | nil => exact List.append_nil body
  | cons c comment =>
      rw [List.takeWhile_cons_of_neg (by rw [hcomment c rfl]; decide), List.append_nil]

/-- What is cut off a line is empty or starts at the line's first `#`. -/
theorem beforeComment_spec (line : List Char) : ∃ comment, line = beforeComment line ++ comment ∧
    '#' ∉ beforeComment line ∧ ∀ c ∈ comment.head?, c = '#' := by
  refine ⟨line.dropWhile (· ≠ '#'), List.takeWhile_append_dropWhile.symm, fun hmem => ?_,
    fun c hc => ?_⟩
  · have h := List.mem_takeWhile_imp hmem
    exact absurd rfl (of_decide_eq_true h)
  · have hhead := List.head?_dropWhile_not (fun c => decide (c ≠ '#')) line
    rw [Option.mem_def.mp hc] at hhead
    simpa using hhead

/-- What the words of a line say it is. -/
theorem lineWords_eq_iff {line : List Char} {ws : List String} : lineWords line = ws ↔
    ∃ spelled body comment, ws = spelled.map String.ofList ∧ line = body ++ comment ∧
      '#' ∉ body ∧ (∀ c ∈ comment.head?, c = '#') ∧ Spells isWhitespace spelled body := by
  rw [lineWords, words_trim]
  constructor
  · rintro rfl
    obtain ⟨comment, hline, hbody, hcomment⟩ := beforeComment_spec line
    exact ⟨_, _, comment, rfl, hline, hbody, hcomment, spells_words _⟩
  · rintro ⟨spelled, body, comment, rfl, rfl, hbody, hcomment, hspells⟩
    rw [beforeComment_append hbody hcomment, hspells.words_eq]

/-- The words of an entry, spelled in a line. -/
theorem lineEntry_some_iff {line : List Char} {entry : Entry} :
    LineEntry zenoh parseF64 (some entry) line ↔
      EntryWords zenoh parseF64 entry (lineWords line) := by
  constructor
  · rintro ⟨⟩
    next body comment hbody hcomment ws hspells hentry =>
      rwa [lineWords_eq_iff.mpr ⟨ws, body, comment, rfl, rfl, hbody, hcomment, hspells⟩]
  · intro h
    obtain ⟨ws, body, comment, hwords, rfl, hbody, hcomment, hspells⟩ :=
      (@lineWords_eq_iff line _).mp rfl
    rw [hwords] at h
    exact .entry hbody hcomment hspells h

/-- The lines without an entry are those without a word. -/
theorem lineEntry_none_iff {line : List Char} :
    LineEntry zenoh parseF64 none line ↔ lineWords line = [] := by
  constructor
  · rintro ⟨⟩
    next body comment hbody hcomment hspells =>
      exact lineWords_eq_iff.mpr ⟨[], body, comment, rfl, rfl, hbody, hcomment, hspells⟩
  · intro h
    obtain ⟨ws, body, comment, hwords, rfl, hbody, hcomment, hspells⟩ := lineWords_eq_iff.mp h
    obtain rfl := List.map_eq_nil_iff.mp hwords.symm
    exact .blank hbody hcomment hspells

/-- A line is added exactly if it is one of those that a file may have. -/
theorem addLine_eq_ok_iff {line : List Char} : c.addLine zenoh parseF64 line = .ok c' ↔
    ∃ entry, LineEntry zenoh parseF64 entry line ∧ c' = entry.elim c (Entry.add c) := by
  constructor
  · intro h
    rw [addLine] at h
    split at h
    · next hwords => exact ⟨none, lineEntry_none_iff.mpr hwords, (Except.ok.inj h).symm⟩
    · next mode keyExpr hwords =>
        cases hrule : ForwardRule.parse zenoh (mode ++ ":" ++ keyExpr) with
        | error e =>
            rw [hrule] at h
            cases h
        | ok rule =>
            rw [hrule] at h
            obtain ⟨htext, hkey⟩ := ForwardRule.parse_eq_ok_iff.mp hrule
            refine ⟨some (.forward rule), lineEntry_some_iff.mpr ?_, (Except.ok.inj h).symm⟩
            rw [hwords]
            exact .forward htext hkey
    · next keyExpr hwords =>
        rw [addAccept] at h
        split_ifs at h with hkey
        refine ⟨some (.accept keyExpr), lineEntry_some_iff.mpr ?_, (Except.ok.inj h).symm⟩
        rw [hwords]
        exact .accept hkey
    · next value hwords =>
        rw [setMaxMbps] at h
        split at h
        · cases h
        · next mbps hvalue =>
            split_ifs at h with hmbps
            refine ⟨some (.maxMbps mbps), lineEntry_some_iff.mpr ?_, (Except.ok.inj h).symm⟩
            rw [hwords]
            exact .maxMbps hvalue hmbps
        · cases h
    · cases h
  · rintro ⟨entry, hentry, rfl⟩
    cases entry with
    | none =>
        rw [addLine, lineEntry_none_iff.mp hentry]
        rfl
    | some entry =>
        have hwords := lineEntry_some_iff.mp hentry
        rw [addLine]
        generalize lineWords line = ws at hwords
        cases hwords with
        | @forward rule mode keyExpr hrule hkey =>
            show (ForwardRule.parse zenoh (mode ++ ":" ++ keyExpr)).map _ = _
            rw [ForwardRule.parse_eq_ok_iff.mpr ⟨hrule, hkey⟩]
            rfl
        | @accept keyExpr hkey =>
            show c.addAccept zenoh keyExpr = _
            rw [addAccept, if_pos hkey]
            rfl
        | @maxMbps value mbps hvalue hmbps =>
            show c.setMaxMbps parseF64 value = _
            rw [setMaxMbps, hvalue]
            dsimp only
            rw [if_pos hmbps]
            rfl

/-! ## Files -/

/-- What some entries make of a configuration. -/
def addEntries (c : ForwardConfig) (entries : List (Option Entry)) : ForwardConfig :=
  entries.foldl (fun c entry => entry.elim c (Entry.add c)) c

/-- Where lines stop being read, and with which error. -/
def StopsAt (zenoh : KeyExprs) (parseF64 : String → Option F64Value) (n : Nat)
    (ls : List (List Char)) (e : LineError) (entries : List (Option Entry)) : Prop :=
  ∃ before line after, ls = before ++ line :: after ∧
    List.Forall₂ (LineEntry zenoh parseF64) entries before ∧
    (∀ entry, ¬ LineEntry zenoh parseF64 entry line) ∧ e.line = n + before.length + 1 ∧
      e.text = String.ofList (trim isWhitespace (beforeComment line))

/-- Lines that all read are added entry after entry, and none is reported. -/
theorem addLines_of_entries {entries : List (Option Entry)} {ls : List (List Char)}
    (h : List.Forall₂ (LineEntry zenoh parseF64) entries ls) (c : ForwardConfig) (n : Nat) :
    c.addLines zenoh parseF64 n ls = (c.addEntries entries, none) := by
  induction h generalizing c n with
  | nil => rfl
  | cons hentry _ ih =>
      rw [addLines, addLine_eq_ok_iff.mpr ⟨_, hentry, rfl⟩]
      exact ih _ _

/-- Lines are read whole, or up to the first one that no file may have. -/
theorem addLines_spec : ∀ (ls : List (List Char)) (c : ForwardConfig) (n : Nat),
    ∃ entries, (List.Forall₂ (LineEntry zenoh parseF64) entries ls ∧
        c.addLines zenoh parseF64 n ls = (c.addEntries entries, none)) ∨
      ∃ e, StopsAt zenoh parseF64 n ls e entries ∧
        c.addLines zenoh parseF64 n ls = (c.addEntries entries, some e)
  | [], c, n => ⟨[], .inl ⟨.nil, rfl⟩⟩
  | line :: rest, c, n => by
      rw [addLines]
      cases hline : c.addLine zenoh parseF64 line with
      | error cause =>
          refine ⟨[], .inr ⟨_, ⟨[], line, rest, rfl, .nil, fun entry hentry => ?_, rfl, rfl⟩, rfl⟩⟩
          have hok := (addLine_eq_ok_iff (c := c)).mpr ⟨entry, hentry, rfl⟩
          exact absurd (hline.symm.trans hok) nofun
      | ok c' =>
          obtain ⟨entry, hentry, rfl⟩ := addLine_eq_ok_iff.mp hline
          dsimp only
          obtain ⟨entries, hrest⟩ := addLines_spec rest (entry.elim c (Entry.add c)) (n + 1)
          refine ⟨entry :: entries, ?_⟩
          rcases hrest with ⟨hentries, hread⟩ | ⟨e, ⟨before, bad, after, rfl, hbefore, hbad,
            hnumber, htext⟩, hread⟩
          · exact .inl ⟨.cons hentry hentries, hread⟩
          · refine .inr ⟨e, ⟨line :: before, bad, after, rfl, .cons hentry hbefore, hbad, ?_,
              htext⟩, hread⟩
            rw [hnumber, List.length_cons]
            omega

/-! ## What is read is valid -/

/-- A line that reads as an entry keeps the settings within their checks. -/
theorem Valid.addEntry (h : c.Valid zenoh) {entry : Option Entry} {line : List Char}
    (hentry : LineEntry zenoh parseF64 entry line) :
    (entry.elim c (Entry.add c)).Valid zenoh := by
  cases entry with
  | none => exact h
  | some entry =>
      have hwords := lineEntry_some_iff.mp hentry
      generalize lineWords line = ws at hwords
      cases hwords with
      | forward _ hkey =>
          exact { h with
            forward := List.forall_mem_append.mpr ⟨h.forward, List.forall_mem_singleton.mpr hkey⟩ }
      | accept hkey =>
          exact { h with
            accept := List.forall_mem_append.mpr ⟨h.accept, List.forall_mem_singleton.mpr hkey⟩ }
      | maxMbps _ hmbps => exact { h with maxMbps := hmbps }

/-- So do lines that all read. -/
theorem Valid.addEntries (h : c.Valid zenoh) {entries : List (Option Entry)}
    {ls : List (List Char)} (hentries : List.Forall₂ (LineEntry zenoh parseF64) entries ls) :
    (c.addEntries entries).Valid zenoh := by
  induction hentries generalizing c with
  | nil => exact h
  | cons hentry _ ih => exact ih (h.addEntry hentry)

/-- A forwarder starts with it. -/
theorem Valid.starts (h : c.Valid zenoh) : ∃ f, Forwarder.start zenoh c = some f :=
  ⟨_, if_pos (List.all_eq_true.mpr h.accept)⟩

/-- What is promised of a text that is read. -/
structure ReadsText (zenoh : KeyExprs) (parseF64 : String → Option F64Value) (c : ForwardConfig)
    (text : String) : Prop where
  /-- The text is read exactly if every line is one that a file may have. -/
  whole : ∀ c', c.addText zenoh parseF64 text = (c', none) ↔ ∃ entries,
    List.Forall₂ (LineEntry zenoh parseF64) entries (lines '\n' '\r' text.toList) ∧
      c' = c.addEntries entries
  /-- An error is about the first line that is none, and what is before it is added. -/
  stops : ∀ c' e, c.addText zenoh parseF64 text = (c', some e) → ∃ entries,
    StopsAt zenoh parseF64 0 (lines '\n' '\r' text.toList) e entries ∧ c' = c.addEntries entries
  valid : c.Valid zenoh → (c.addText zenoh parseF64 text).1.Valid zenoh ∧
    ∃ f, Forwarder.start zenoh (c.addText zenoh parseF64 text).1 = some f

/-- What may be a line, is read as the entry that it has, and whatever text is read leaves a
configuration that a forwarder starts with. -/
theorem forwardConfig_exact (zenoh : KeyExprs) (parseF64 : String → Option F64Value)
    (c : ForwardConfig) :
    (∀ text, ReadsText zenoh parseF64 c text) ∧
      ∀ (file : List (List Char × Bool)) (entries : List (Option Entry)),
        (∀ l ∈ file, '\n' ∉ l.1) → (∀ l ∈ file, l.1.getLast? ≠ some '\r') →
          List.Forall₂ (LineEntry zenoh parseF64) entries (file.map Prod.fst) →
            c.addText zenoh parseF64 (String.ofList
              (file.flatMap fun l => l.1 ++ (if l.2 then ['\r'] else []) ++ ['\n'])) =
                (c.addEntries entries, none) := by
  constructor
  · intro text
    obtain ⟨entries, hread⟩ := @addLines_spec zenoh parseF64 (lines '\n' '\r' text.toList) c 0
    refine ⟨fun c' => ⟨fun h => ?_, ?_⟩, fun c' e h => ?_, fun hvalid => ?_⟩
    · rcases hread with ⟨hentries, hread⟩ | ⟨e, -, hread⟩
      · exact ⟨entries, hentries, congrArg Prod.fst (h.symm.trans hread)⟩
      · exact absurd (congrArg Prod.snd (h.symm.trans hread)) (Option.some_ne_none e).symm
    · rintro ⟨entries', hentries, rfl⟩
      exact addLines_of_entries hentries c 0
    · rcases hread with ⟨-, hread⟩ | ⟨e', hstops, hread⟩
      · exact absurd (congrArg Prod.snd (h.symm.trans hread)) (Option.some_ne_none e)
      · obtain ⟨hc, he⟩ := Prod.mk.inj (h.symm.trans hread)
        obtain rfl := Option.some.inj he
        exact ⟨entries, hstops, hc⟩
    · have hvalid' : (c.addText zenoh parseF64 text).1.Valid zenoh := by
        rcases hread with ⟨hentries, hread⟩ | ⟨e, ⟨before, bad, after, -, hbefore, -⟩, hread⟩
        · rw [addText, hread]
          exact hvalid.addEntries hentries
        · rw [addText, hread]
          exact hvalid.addEntries hbefore
      exact ⟨hvalid', hvalid'.starts⟩
  · intro file entries hlines hends hentries
    rw [addText, String.toList_ofList, lines_flatMap hlines hends (by decide)]
    exact addLines_of_entries hentries c 0

/-- A number without a fraction. -/
def plainF64 (s : String) : Option F64Value :=
  if s.toList = [] ∨ s.toList.any fun c => !c.isDigit then none
  else some (.finite (s.toList.foldl (fun n c => 10 * n + (c.toNat - '0'.toNat)) 0 : Nat))

/-- A comment, a rule with spaces and a comment, and a cap. -/
def poseFile : List (List Char × Bool) :=
  [("# robot side".toList, false), ("  forward latest\trobot/pose # pose".toList, true),
    ("max-mbps 2".toList, false)]

/-- A file with a comment, a rule and a rate, one line with a carriage return. -/
theorem forwardConfig_exact_poseFile :
    (ForwardConfig.default.addText KeyExprs.plain plainF64 (String.ofList
        (poseFile.flatMap fun l => l.1 ++ (if l.2 then ['\r'] else []) ++ ['\n']))) =
      (ForwardConfig.default.addEntries
        [none, some (.forward ⟨.latest, "robot/pose"⟩), some (.maxMbps 2)], none) :=
  (forwardConfig_exact KeyExprs.plain plainF64 ForwardConfig.default).2 poseFile
    [none, some (.forward ⟨.latest, "robot/pose"⟩), some (.maxMbps 2)] (by decide) (by decide)
    (.cons (lineEntry_none_iff.mpr (by decide +kernel))
      (.cons (lineEntry_some_iff.mpr (by
          rw [show lineWords _ = ["forward", "latest", "robot/pose"] by decide +kernel]
          exact .forward rfl (by decide +kernel)))
        (.cons (lineEntry_some_iff.mpr (by
            rw [show lineWords _ = ["max-mbps", "2"] by decide +kernel]
            exact .maxMbps (by decide +kernel) (by norm_num))) .nil)))

end ForwardConfig

end RoboTele
