import Switchboard.Json.Printer
import Switchboard.Proofs.Digits
import Switchboard.Proofs.Json.Numerals
import Switchboard.Yaml.Parser

/-!
# JSON texts as YAML

A JSON object of numbers, strings and further objects, as it is written, is a YAML text too. Its
tokens in YAML are those of the same value (`tokens?_render`): braces and commas stand for
themselves, a name is a key because of the colon behind it, and a number is a plain scalar. The
names and strings have to consist of visible characters that JSON writes as they are, and the names
must not be longer than a key may be.

The lexer is followed through one construct after the other: where it stands in front of some text,
some steps lead to where it stands behind the text, with the tokens of the text added
(`Lexer.Stands`, `Lexer.Leads`).
-/

namespace Switchboard

namespace Yaml

/-! ## Characters -/

/-- A character that is seen. -/
def Visible (c : Char) : Prop := 0x21 ≤ c.toNat ∧ c.toNat ≤ 0x7E

instance (c : Char) : Decidable (Visible c) := inferInstanceAs (Decidable (_ ∧ _))

/-- A visible character that stands for itself between quotation marks. -/
def Bare (c : Char) : Prop := Visible c ∧ c ≠ '"' ∧ c ≠ '\\'

instance (c : Char) : Decidable (Bare c) := inferInstanceAs (Decidable (_ ∧ _ ∧ _))

/-- A text that can be a key: bare, and with its quotation marks not too long for one. -/
def KeyText (s : String) : Prop := (∀ c ∈ s.toList, Bare c) ∧ s.length + 2 ≤ 1024

instance (s : String) : Decidable (KeyText s) :=
  decidable_of_decidable_of_iff
    (show (s.toList.all fun c => decide (Bare c)) = true ∧ s.length + 2 ≤ 1024 ↔ KeyText s by
      simp [KeyText])

theorem Visible.ne {c d : Char} (h : Visible c) (hd : ¬ Visible d) : c ≠ d := by
  rintro rfl
  exact hd h

theorem Visible.isBlank_eq {c : Char} (h : Visible c) : isBlank c = false := by
  have hspace : c ≠ ' ' := h.ne (by decide)
  have htab : c ≠ '\t' := h.ne (by decide)
  simp [isBlank, hspace, htab]

theorem Visible.isBreak_eq {c : Char} (h : Visible c) : isBreak c = false := by
  have hfeed : c ≠ '\n' := h.ne (by decide)
  have hline : c ≠ '\u2028' := h.ne (by decide)
  have hparagraph : c ≠ '\u2029' := h.ne (by decide)
  simp [isBreak, hfeed, hline, hparagraph]

theorem Visible.isAllowed_eq {c : Char} (h : Visible c) : isAllowed c = true := by
  obtain ⟨hlow, hhigh⟩ := h
  have hle : 0x20 ≤ c.toNat := by omega
  simp [isAllowed, hle, hhigh]

theorem uniformBreaks_of_visible {text : List Char} (h : ∀ c ∈ text, Visible c) :
    uniformBreaks text = text := by
  induction text with
  | nil => rfl
  | cons c text ih =>
      -- The two characters that are replaced are not visible.
      have hc := h c List.mem_cons_self
      have hreturn : c ≠ '\r' := hc.ne (by decide)
      have hnext : c ≠ '\u0085' := hc.ne (by decide)
      have htail := ih fun d hd => h d (List.mem_cons_of_mem c hd)
      simp [uniformBreaks, hreturn, htail]

/-- Digits stand for themselves in every base that is written with letters up to `f`. -/
theorem bare_toDigits {base : Nat} (hlow : 1 < base) (hhigh : base ≤ 16) (n : Nat) :
    ∀ c ∈ Nat.toDigits base n, Bare c := by
  obtain ⟨ds, hds, hspelled⟩ := Digits.toDigits_spelled hlow n
  rw [hds]
  intro c hc
  obtain ⟨d, hd, rfl⟩ := List.mem_map.mp hc
  have hlt : d < 16 := Nat.lt_of_lt_of_le (hspelled.below d hd) hhigh
  interval_cases d <;> decide

/-- JSON leaves a bare character as it is. -/
theorem Bare.escapeChar_eq {c : Char} (h : Bare c) : Json.escapeChar c = [c] := by
  obtain ⟨hvisible, hquote, hbackslash⟩ := h
  have hcontrol : ¬ c.toNat < 0x20 := by
    obtain ⟨hlow, -⟩ := hvisible
    omega
  have hback : c ≠ '\x08' := hvisible.ne (by decide)
  have htab : c ≠ '\t' := hvisible.ne (by decide)
  have hfeed : c ≠ '\n' := hvisible.ne (by decide)
  have hform : c ≠ '\x0c' := hvisible.ne (by decide)
  have hreturn : c ≠ '\r' := hvisible.ne (by decide)
  simp [Json.escapeChar, hquote, hbackslash, hcontrol, hback, htab, hfeed, hform, hreturn]

theorem quote_of_bare {s : String} (h : ∀ c ∈ s.toList, Bare c) :
    Json.quote s = '"' :: s.toList ++ ['"'] := by
  have hflat : ∀ cs : List Char, (∀ c ∈ cs, Bare c) → cs.flatMap Json.escapeChar = cs := by
    intro cs
    induction cs with
    | nil => exact fun _ => rfl
    | cons c cs ih =>
        intro hcs
        rw [List.flatMap_cons, (hcs c List.mem_cons_self).escapeChar_eq,
          ih fun d hd => hcs d (List.mem_cons_of_mem c hd)]
        rfl
  rw [Json.quote, hflat _ h]

/-! ## Scalars -/

/-- A scalar between quotation marks is read as the characters that stand there. -/
theorem readDoubleQuoted_bare {cs : List Char} (hcs : ∀ c ∈ cs, Bare c) (read : List Char)
    (line : Nat) {column : Nat} (hcolumn : column ≠ 0) (rest : List Char) :
    readDoubleQuoted read (.text {}) line column (cs ++ '"' :: rest) =
      some (String.ofList (read.reverse ++ cs), ⟨rest, line, column + cs.length + 1⟩) := by
  -- Behind the opening mark the column is not zero, where the mark of a document could stand.
  induction cs generalizing read column with
  | nil =>
      simp [readDoubleQuoted, hcolumn, isBlank, isBreak, Gap.folded]
  | cons c cs ih =>
      obtain ⟨hvisible, hquote, hbackslash⟩ := hcs c List.mem_cons_self
      have htail := ih (fun d hd => hcs d (List.mem_cons_of_mem c hd)) (c :: read)
        (Nat.succ_ne_zero column)
      rw [List.cons_append, readDoubleQuoted]
      simp only [hvisible.isBlank_eq, hvisible.isBreak_eq, hquote, hbackslash, if_false,
        beq_eq_false_iff_ne.mpr hcolumn, Bool.false_and, Bool.false_eq_true, Gap.folded,
        Bool.not_false, if_true, List.nil_append, htail]
      simp [Nat.add_comm, Nat.add_left_comm]

/-- A digit in a plain scalar is part of it. -/
theorem readPlain_digits {ds : List Nat} (hds : ∀ d ∈ ds, d < 10) (read : List Char)
    (indent line column : Nat) {mark : Char} (hmark : mark = ',' ∨ mark = '\x7d')
    (rest : List Char) :
    readPlain true indent read {} line column (ds.map Nat.digitChar ++ mark :: rest) =
      some ⟨String.ofList (read.reverse ++ ds.map Nat.digitChar), false,
        ⟨mark :: rest, line, column + ds.length⟩⟩ := by
  induction ds generalizing read column with
  | nil =>
      -- Either mark ends a plain scalar in a flow collection.
      rcases hmark with rfl | rfl <;>
        simp [readPlain, isBlank, isBreak, isFlowIndicator, endsPlain]
  | cons d ds ih =>
      have hd := hds d List.mem_cons_self
      have htail := ih (fun e he => hds e (List.mem_cons_of_mem d he)) (d.digitChar :: read)
        (column + 1)
      have hplain : isBlank d.digitChar = false ∧ isBreak d.digitChar = false ∧
          d.digitChar ≠ ':' ∧ isFlowIndicator d.digitChar = false := by
        interval_cases d <;> decide
      obtain ⟨hblank, hbreak, hcolon, hflow⟩ := hplain
      rw [List.map_cons, List.cons_append, readPlain]
      simp only [hblank, hbreak, hcolon, hflow, endsPlain, Gap.isEmpty, Gap.folded,
        Bool.false_eq_true,
        if_false, Bool.and_false, Bool.false_and, Bool.or_self, decide_false, List.isEmpty_nil,
        Bool.not_false, Bool.and_self, Bool.not_true, if_true, List.nil_append, htail]
      simp [Nat.add_comm, Nat.add_left_comm]

namespace Lexer

/-! ## Steps -/

/-- `count` steps lead from one lexer to another, none of them to the end of the text. -/
inductive Steps : Nat → Lexer → Lexer → Prop
  | none (lexer : Lexer) : Steps 0 lexer lexer
  | some {count : Nat} {lexer next last : Lexer} (hstep : lexer.step = some next)
      (hunfinished : next.finished = false) (hrest : Steps count next last) :
      Steps (count + 1) lexer last

theorem Steps.trans {m n : Nat} {a b c : Lexer} (hab : Steps m a b) (hbc : Steps n b c) :
    Steps (m + n) a c := by
  induction hab with
  | none => exact (Nat.zero_add n).symm ▸ hbc
  | @some count a next b hstep hunfinished _ ih =>
      have hcount : count + 1 + n = (count + n) + 1 := Nat.succ_add_eq_add_succ count n
      exact hcount ▸ .some hstep hunfinished (ih hbc)

/-- A run may be followed step by step. -/
theorem Steps.run_eq {n : Nat} {a b : Lexer} (h : Steps n a b) (more : Nat) :
    run (n + more) a = run more b := by
  induction h with
  | none => rw [Nat.zero_add]
  | @some count a next b hstep hunfinished _ ih =>
      rw [Nat.succ_add, run, hstep]
      simp only [hunfinished, Bool.false_eq_true, if_false, ih]

/-! ## Places -/

/-- No key has to begin at a site. -/
def Loose (site : Option KeySite) : Prop := site.any KeySite.required = false

theorem refreshSite_of_loose {site : Option KeySite} (h : Loose site) (cursor : Cursor) :
    ∃ fresh, refreshSite cursor site = some fresh ∧ Loose fresh ∧
      ((∀ known ∈ site, isStale cursor known = false) → fresh = site) := by
  cases site with
  | none => exact ⟨none, rfl, rfl, fun _ => rfl⟩
  | some known =>
      have hrequired : known.required = false := h
      cases hstale : isStale cursor known with
      | false => exact ⟨some known, by simp [refreshSite, hstale], h, fun _ => rfl⟩
      | true =>
          refine ⟨none, by simp [refreshSite, hstale, hrequired], rfl, fun hfresh => ?_⟩
          rw [hfresh known rfl] at hstale
          cases hstale

theorem mapM_refreshSite_of_loose {sites : List (Option KeySite)} (h : ∀ site ∈ sites, Loose site)
    (cursor : Cursor) :
    ∃ fresh, sites.mapM (refreshSite cursor) = some fresh ∧ fresh.length = sites.length ∧
      ∀ site ∈ fresh, Loose site := by
  induction sites with
  | nil => exact ⟨[], rfl, rfl, fun site hsite => absurd hsite List.not_mem_nil⟩
  | cons site sites ih =>
      obtain ⟨first, hfirst, hloose, -⟩ := refreshSite_of_loose (h site List.mem_cons_self) cursor
      obtain ⟨others, hothers, hlength, hall⟩ := ih fun s hs => h s (List.mem_cons_of_mem site hs)
      refine ⟨first :: others, by simp [hfirst, hothers], by simp [hlength], fun s hs => ?_⟩
      rcases List.mem_cons.mp hs with rfl | hs
      · exact hloose
      · exact hall s hs

/-- Where a lexer stands: in so many flow collections and no blocks, in front of a text, with the
tokens it has found, and with no site at which a key has to begin. -/
structure Stands (lexer : Lexer) (depth : Nat) (keyAllowed : Bool) (text : List Char)
    (tokens : List Token) : Prop where
  text : lexer.cursor.rest = text
  tokens : lexer.tokens.toList = tokens
  indents : lexer.indents = []
  site : Loose lexer.site
  depth : lexer.outerSites.length = depth
  outerSites : ∀ site ∈ lexer.outerSites, Loose site
  keyAllowed : lexer.keyAllowed = keyAllowed
  unfinished : lexer.finished = false

/-- From a place in front of `text`, with the given tokens found, some steps, not more than the text
has characters, lead to a place behind it with more tokens. -/
def Leads (depth depth' : Nat) (keyAllowed keyAllowed' : Bool) (text : List Char)
    (found : List Token) (rest : List Char) : Prop :=
  ∀ (lexer : Lexer) (tokens : List Token), lexer.Stands depth keyAllowed (text ++ rest) tokens →
    ∃ count next, count ≤ text.length ∧ Steps count lexer next ∧
      next.Stands depth' keyAllowed' rest (tokens ++ found)

section

variable {lexer : Lexer} {depth : Nat} {keyAllowed : Bool} {text : List Char} {tokens : List Token}

theorem Stands.inFlow_eq (h : lexer.Stands depth keyAllowed text tokens) :
    lexer.inFlow = decide (depth ≠ 0) := by
  rw [inFlow, ← h.depth]
  cases lexer.outerSites <;> rfl

/-- Without blocks there is none to close. -/
theorem closeBlocks_of_indents_eq_nil (h : lexer.indents = []) (column : Option Nat) :
    lexer.closeBlocks column = lexer := by
  cases lexer with
  | mk cursor tokens indents =>
      subst h
      simp [closeBlocks]

/-- Where no white space stands, a step drops stale sites and goes on with the next character. -/
theorem Stands.step_eq_elim (h : lexer.Stands depth keyAllowed text tokens)
    (hnext : ∀ c ∈ text.head?, Visible c ∧ c ≠ '#') :
    ∃ fresh : Lexer, lexer.step = text.head?.elim fresh.finish fresh.token ∧
      fresh.Stands depth keyAllowed text tokens ∧
      fresh.cursor = lexer.cursor ∧ fresh.tokens = lexer.tokens ∧
      ((∀ known ∈ lexer.site, isStale lexer.cursor known = false) → fresh.site = lexer.site) := by
  obtain ⟨site, hsite, hloose, hsame⟩ := refreshSite_of_loose h.site lexer.cursor
  obtain ⟨outer, houter, hlength, hall⟩ := mapM_refreshSite_of_loose h.outerSites lexer.cursor
  have hcursor : lexer.cursor = ⟨text, lexer.cursor.line, lexer.cursor.column⟩ := by
    rw [← h.text]
  -- There is nothing to skip, and no block to close.
  have hskip : skipSpace lexer.inFlow lexer.keyAllowed false lexer.cursor.line lexer.cursor.column
      lexer.cursor.rest = (lexer.cursor, lexer.keyAllowed) := by
    rw [h.text]
    conv => rhs; rw [hcursor]
    cases text with
    | nil => rfl
    | cons c text =>
        obtain ⟨hc, hcomment⟩ := hnext c rfl
        have hspace : c ≠ ' ' := hc.ne (by decide)
        have htab : c ≠ '\t' := hc.ne (by decide)
        have hmark : c ≠ byteOrderMark := hc.ne (by decide)
        simp [skipSpace, hc.isBreak_eq, hspace, htab, hmark, hcomment]
  have hblocks : ({ lexer with site, outerSites := outer } : Lexer).closeBlocks
      (some lexer.cursor.column) = { lexer with site, outerSites := outer } := by
    apply closeBlocks_of_indents_eq_nil
    exact h.indents
  refine ⟨{ lexer with site, outerSites := outer }, ?_,
    ⟨h.text, h.tokens, h.indents, hloose, hlength.trans h.depth, hall, h.keyAllowed, h.unfinished⟩,
    rfl, rfl, hsame⟩
  cases text with
  | nil =>
      have hpeek : lexer.cursor.peek = none := by simp [Cursor.peek, h.text]
      simp [step, hskip, refreshSites, hsite, houter, hblocks, hpeek]
  | cons c text =>
      have hpeek : lexer.cursor.peek = some c := by simp [Cursor.peek, h.text]
      simp [step, hskip, refreshSites, hsite, houter, hblocks, hpeek]

/-- In front of a visible character, a step reads the token that begins there. -/
theorem Stands.step_eq {c : Char} (h : lexer.Stands depth keyAllowed (c :: text) tokens)
    (hc : Visible c) (hcomment : c ≠ '#') :
    ∃ fresh : Lexer, lexer.step = fresh.token c ∧ fresh.Stands depth keyAllowed (c :: text) tokens ∧
      fresh.cursor = lexer.cursor ∧ fresh.tokens = lexer.tokens ∧
      ((∀ known ∈ lexer.site, isStale lexer.cursor known = false) → fresh.site = lexer.site) := by
  apply h.step_eq_elim
  rintro d ⟨⟩
  exact ⟨hc, hcomment⟩

/-- A key may begin at any token, but never has to. -/
theorem Stands.markSite_eq (h : lexer.Stands depth keyAllowed text tokens) :
    ∃ marked : Lexer, lexer.markSite = some marked ∧ marked.Stands depth keyAllowed text tokens ∧
      marked.cursor = lexer.cursor ∧ marked.tokens = lexer.tokens ∧
      (keyAllowed = true → marked.site =
        some ⟨lexer.tokens.size, lexer.cursor.line, lexer.cursor.column, false⟩) := by
  have hloose : lexer.site.any KeySite.required = false := h.site
  cases hallowed : lexer.keyAllowed with
  | false =>
      refine ⟨lexer, by simp [markSite, hallowed], h, rfl, rfl, fun hkey => ?_⟩
      rw [← h.keyAllowed, hallowed] at hkey
      cases hkey
  | true =>
      refine ⟨{ lexer with site := some ⟨lexer.tokens.size, lexer.cursor.line, lexer.cursor.column,
          false⟩ }, ?_, ⟨h.text, h.tokens, h.indents, rfl, h.depth, h.outerSites, h.keyAllowed,
          h.unfinished⟩, rfl, rfl, fun _ => rfl⟩
      simp [markSite, hallowed, dropSite, hloose, h.indents]

theorem Stands.dropSite_eq (h : lexer.Stands depth keyAllowed text tokens) :
    lexer.dropSite = some { lexer with site := none } := by
  have hloose : lexer.site.any KeySite.required = false := h.site
  simp [dropSite, hloose]

/-- A lexer behind one more token, of `count` characters, with other sites. -/
theorem Stands.emitFor (h : lexer.Stands depth keyAllowed text tokens) (count : Nat) (token : Token)
    {site : Option KeySite} {outerSites : List (Option KeySite)} (hsite : Loose site)
    (houter : ∀ s ∈ outerSites, Loose s) (allowed : Bool) :
    ({ (lexer.emitFor count token).allowKey allowed with site, outerSites } : Lexer).Stands
      outerSites.length allowed (text.drop count) (tokens ++ [token]) where
  text := by simp [Lexer.emitFor, allowKey, Cursor.advance, h.text]
  tokens := by simp [Lexer.emitFor, allowKey, emit, h.tokens]
  indents := h.indents
  site := hsite
  depth := rfl
  outerSites := houter
  keyAllowed := rfl
  unfinished := h.unfinished

end

/-! ## Marks -/

theorem Leads.trans {d d' d'' : Nat} {k k' k'' : Bool} {text text' rest : List Char}
    {found found' : List Token} (h : Leads d d' k k' text found (text' ++ rest))
    (h' : Leads d' d'' k' k'' text' found' rest) :
    Leads d d'' k k'' (text ++ text') (found ++ found') rest := by
  intro lexer tokens hstands
  rw [List.append_assoc] at hstands
  obtain ⟨m, next, hm, hsteps, hnext⟩ := h lexer tokens hstands
  obtain ⟨n, last, hn, hmore, hlast⟩ := h' next _ hnext
  refine ⟨m + n, last, ?_, hsteps.trans hmore, List.append_assoc tokens found found' ▸ hlast⟩
  rw [List.length_append]
  exact Nat.add_le_add hm hn

/-- A single step that takes a mark. -/
theorem leads_of_step {d d' : Nat} {k k' : Bool} {text rest : List Char} {found : List Token}
    (htext : text ≠ [])
    (h : ∀ {lexer : Lexer} {tokens : List Token}, lexer.Stands d k (text ++ rest) tokens →
      ∃ next, lexer.step = some next ∧ next.Stands d' k' rest (tokens ++ found)) :
    Leads d d' k k' text found rest := by
  intro lexer tokens hstands
  obtain ⟨next, hstep, hnext⟩ := h hstands
  exact ⟨1, next, List.length_pos_iff.mpr htext, .some hstep hnext.unfinished (.none next), hnext⟩

/-- A brace opens a mapping. -/
theorem leads_open (depth : Nat) (keyAllowed : Bool) (rest : List Char) :
    Leads depth (depth + 1) keyAllowed true ['{'] [.beginMapping] rest := by
  refine leads_of_step (List.cons_ne_nil _ _) fun {lexer tokens} hstands => ?_
  obtain ⟨fresh, hstep, hfresh, -⟩ := hstands.step_eq (by decide) (by decide)
  obtain ⟨marked, hmark, hmarked, -⟩ := hfresh.markSite_eq
  refine ⟨{ (marked.emitFor 1 .beginMapping).allowKey true with
    outerSites := marked.site :: marked.outerSites, site := none }, ?_, ?_⟩
  · rw [hstep]
    simp [token, hfresh.text, startsWithMarker, enterFlow, hmark, Lexer.emitFor, allowKey, emit]
  · have hsites : ∀ s ∈ marked.site :: marked.outerSites, Loose s := by
      intro s hs
      rcases List.mem_cons.mp hs with rfl | hs
      · exact hmarked.site
      · exact hmarked.outerSites s hs
    have hnext := hmarked.emitFor 1 .beginMapping (rfl : Loose none) hsites true
    rwa [List.length_cons, hmarked.depth] at hnext

/-- A brace closes a mapping. -/
theorem leads_close (depth : Nat) (keyAllowed : Bool) (rest : List Char) :
    Leads (depth + 1) depth keyAllowed false ['\x7d'] [.endMapping] rest := by
  refine leads_of_step (List.cons_ne_nil _ _) fun {lexer tokens} hstands => ?_
  obtain ⟨fresh, hstep, hfresh, -⟩ := hstands.step_eq (by decide) (by decide)
  cases houter : fresh.outerSites with
  | nil =>
      have hdepth := hfresh.depth
      rw [houter] at hdepth
      cases hdepth
  | cons site outerSites =>
      have hsites := hfresh.outerSites
      rw [houter] at hsites
      refine ⟨{ (fresh.emitFor 1 .endMapping).allowKey false with site, outerSites }, ?_, ?_⟩
      · rw [hstep]
        simp [token, hfresh.text, startsWithMarker, leaveFlow, hfresh.dropSite_eq, Lexer.emitFor,
          allowKey, emit, houter]
      · have hnext := hfresh.emitFor 1 .endMapping
          (hsites site List.mem_cons_self)
            (fun s hs => hsites s (List.mem_cons_of_mem site hs)) false
        have hlength := hfresh.depth
        rw [houter, List.length_cons, Nat.add_right_cancel_iff] at hlength
        rwa [hlength] at hnext

/-- A comma separates entries. -/
theorem leads_comma (depth : Nat) (keyAllowed : Bool) (rest : List Char) :
    Leads depth depth keyAllowed true [','] [.flowEntry] rest := by
  refine leads_of_step (List.cons_ne_nil _ _) fun {lexer tokens} hstands => ?_
  obtain ⟨fresh, hstep, hfresh, -⟩ := hstands.step_eq (by decide) (by decide)
  refine ⟨{ (fresh.emitFor 1 .flowEntry).allowKey true with
    site := none, outerSites := fresh.outerSites }, ?_, ?_⟩
  · rw [hstep]
    simp [token, hfresh.text, startsWithMarker, separate, hfresh.dropSite_eq, Lexer.emitFor,
      allowKey, emit]
  · have hnext := hfresh.emitFor 1 .flowEntry (rfl : Loose none)
      hfresh.outerSites true
    rwa [hfresh.depth] at hnext

/-! ## Scalars in a mapping -/

/-- A string is one token, at which a key may have begun. -/
theorem Stands.step_quote {lexer : Lexer} {depth : Nat} {keyAllowed : Bool} {rest : List Char}
    {tokens : List Token} {s : String} (hs : ∀ c ∈ s.toList, Bare c)
    (h : lexer.Stands depth keyAllowed (Json.quote s ++ rest) tokens) :
    ∃ next, lexer.step = some next ∧ next.Stands depth false rest (tokens ++ [.scalar .quoted s]) ∧
      next.tokens = lexer.tokens.push (.scalar .quoted s) ∧
      (keyAllowed = true → next.site =
        some ⟨lexer.tokens.size, lexer.cursor.line, lexer.cursor.column, false⟩) ∧
      next.cursor.line = lexer.cursor.line ∧
      next.cursor.column = lexer.cursor.column + s.length + 2 := by
  have hquote : Json.quote s ++ rest = '"' :: (s.toList ++ '"' :: rest) := by
    simp [quote_of_bare hs]
  rw [hquote] at h
  obtain ⟨fresh, hstep, hfresh, hcursor, htokens, -⟩ := h.step_eq (by decide) (by decide)
  obtain ⟨marked, hmark, hmarked, hcursor', htokens', hsite⟩ := hfresh.markSite_eq
  have hread := readDoubleQuoted_bare hs [] marked.cursor.line
    (Nat.succ_ne_zero marked.cursor.column) rest
  simp only [List.reverse_nil, List.nil_append, String.ofList_toList] at hread
  refine ⟨{ (marked.emit (.scalar .quoted s)).allowKey false with
    cursor := ⟨rest, marked.cursor.line, marked.cursor.column + 1 + s.toList.length + 1⟩ },
    ?_, ⟨rfl, ?_, hmarked.indents, hmarked.site, hmarked.depth, hmarked.outerSites, rfl,
      hmarked.unfinished⟩, ?_, ?_, ?_, ?_⟩
  · rw [hstep]
    simp [token, hfresh.text, startsWithMarker, quotedScalar, hmark, Cursor.advance, hmarked.text,
      hread]
  · simp [emit, allowKey, hmarked.tokens]
  · simp [emit, allowKey, htokens', htokens]
  · intro hkey
    rw [← hcursor, ← htokens]
    exact hsite hkey
  · simp [hcursor', hcursor]
  · simp only [hcursor', hcursor, String.length_toList]
    omega

theorem leads_string {s : String} (hs : ∀ c ∈ s.toList, Bare c) (depth : Nat) (keyAllowed : Bool)
    (rest : List Char) :
    Leads depth depth keyAllowed false (Json.quote s) [.scalar .quoted s] rest := by
  refine leads_of_step (by simp [Json.quote]) fun {lexer tokens} hstands => ?_
  obtain ⟨next, hstep, hnext, -⟩ := hstands.step_quote hs
  exact ⟨next, hstep, hnext⟩

theorem insertIdx_length_concat (tokens : List Token) (mark last : Token) :
    (tokens ++ [last]).insertIdx tokens.length mark = tokens ++ [mark, last] := by
  induction tokens with
  | nil => rfl
  | cons token tokens ih =>
      rw [List.cons_append, List.length_cons, List.insertIdx_succ_cons, ih]
      rfl

/-- The token before which a key is inserted is the last one. -/
theorem toList_insertIdx_push (tokens : Array Token) (mark last : Token) :
    ((tokens.push last).insertIdxIfInBounds tokens.size mark).toList =
      tokens.toList ++ [mark, last] := by
  have hbound : tokens.size ≤ (tokens.push last).size := by simp
  rw [Array.insertIdxIfInBounds, dif_pos hbound, Array.toList_insertIdx, Array.toList_push,
    ← Array.length_toList, insertIdx_length_concat]

/-- A string with a colon behind it is a key. -/
theorem leads_key {s : String} (hs : KeyText s) (depth : Nat) (rest : List Char) :
    Leads (depth + 1) (depth + 1) true false (Json.quote s ++ [':'])
      [.key, .scalar .quoted s, .value] rest := by
  intro lexer tokens hstands
  rw [List.append_assoc] at hstands
  obtain ⟨named, hfirst, hnamed, htokens, hsite, hline, hcolumn⟩ := hstands.step_quote hs.1
  have hlength : s.length + 2 ≤ 1024 := hs.2
  obtain ⟨fresh, hsecond, hfresh, -, htokens', hsame⟩ := hnamed.step_eq (by decide) (by decide)
  -- The key is not too long for its site.
  have hsite' : fresh.site =
      some ⟨lexer.tokens.size, lexer.cursor.line, lexer.cursor.column, false⟩ := by
    rw [hsame, hsite rfl]
    intro known hknown
    rw [hsite rfl, Option.mem_some_iff] at hknown
    subst hknown
    simp only [isStale, hline, hcolumn, Nat.lt_irrefl, decide_false, Bool.false_or,
      decide_eq_false_iff_not]
    omega
  have hflow := hfresh.inFlow_eq
  -- The name is the last token so far, so that the key is inserted right before it.
  let marked : Lexer :=
    { fresh with tokens := fresh.tokens.insertIdxIfInBounds lexer.tokens.size .key, site := none }
  have hmarked :
      marked.Stands (depth + 1) false (':' :: rest) (tokens ++ [.key, .scalar .quoted s]) := by
    refine ⟨hfresh.text, ?_, hfresh.indents, rfl, hfresh.depth, hfresh.outerSites,
      hfresh.keyAllowed, hfresh.unfinished⟩
    rw [← hstands.tokens, ← toList_insertIdx_push]
    simp only [marked, htokens', htokens]
  have hopened : marked.openBlock lexer.cursor.column lexer.tokens.size .beginBlockMapping =
      marked := by
    have hinner : marked.inFlow = true := hmarked.inFlow_eq
    simp [openBlock, hinner]
  have hnext := hmarked.emitFor 1 .value (rfl : Loose none)
    hmarked.outerSites false
  rw [hmarked.depth, List.append_assoc] at hnext
  refine ⟨2, _, ?_, .some hfirst hnamed.unfinished (.some ?_ hnext.unfinished (.none _)), hnext⟩
  · simp [Json.quote]
  · rw [hsecond]
    have hvalue : fresh.token ':' = fresh.beginValue := by
      simp [token, hfresh.text, startsWithMarker, hflow]
    rw [hvalue]
    simp only [beginValue, hsite']
    exact congrArg (fun opened => some ((emitFor opened 1 .value).allowKey false)) hopened

/-- A number is a plain scalar that ends at the next mark. -/
theorem leads_number (n depth : Nat) (keyAllowed : Bool) {mark : Char}
    (hmark : mark = ',' ∨ mark = '\x7d') (rest : List Char) :
    Leads (depth + 1) (depth + 1) keyAllowed false (Nat.toDigits 10 n)
      [.scalar .plain (String.ofList (Nat.toDigits 10 n))] (mark :: rest) := by
  obtain ⟨ds, hds, hspelled⟩ := Digits.toDigits_spelled (by decide : 1 < 10) n
  rw [hds]
  refine leads_of_step (by simpa using hspelled.nonempty) fun {lexer tokens} hstands => ?_
  cases ds with
  | nil => exact absurd rfl hspelled.nonempty
  | cons d ds =>
      have hd : d < 10 := hspelled.below d List.mem_cons_self
      have hdigit : Visible d.digitChar ∧ d.digitChar ≠ '#' := by
        interval_cases d <;> decide
      -- The first digit decides that a plain scalar is read, which takes the others along.
      obtain ⟨fresh, hstep, hfresh, -⟩ := hstands.step_eq hdigit.1 hdigit.2
      obtain ⟨marked, hmarksite, hmarked, -⟩ := hfresh.markSite_eq
      have hinner : marked.inFlow = true := hmarked.inFlow_eq
      have hread := readPlain_digits hspelled.below []
        ((marked.indents.head?.map (· + 1)).getD 0) marked.cursor.line marked.cursor.column
          hmark rest
      rw [List.reverse_nil, List.nil_append] at hread
      refine ⟨{ (marked.emit
        (.scalar .plain (String.ofList ((d :: ds).map Nat.digitChar)))).allowKey
          false with cursor := ⟨mark :: rest, marked.cursor.line,
            marked.cursor.column + (d :: ds).length⟩ }, ?_, ⟨rfl, ?_, hmarked.indents, hmarked.site,
          hmarked.depth, hmarked.outerSites, rfl, hmarked.unfinished⟩⟩
      · have hplain : fresh.token d.digitChar = fresh.plainScalar := by
          have htext := hfresh.text
          interval_cases d <;>
            simp [token, htext, startsWithMarker, beginsPlain, isBlank, isBreak, isFlowIndicator,
              indicators]
        have htext : marked.cursor.rest = (d :: ds).map Nat.digitChar ++ mark :: rest :=
          hmarked.text
        rw [hstep, hplain]
        simp only [plainScalar, hmarksite, Option.bind_eq_bind, Option.bind_some, hinner, htext,
          hread]
      · simp [emit, allowKey, hmarked.tokens]

end Lexer

/-! ## Values -/

/-- A value whose text means the same in YAML: an object, a string or a whole number, with bare
strings, and with names that can be keys. -/
inductive Tame : Json → Prop
  | number (n : Nat) : Tame (.number (.ofNat n))
  | string {s : String} (hs : ∀ c ∈ s.toList, Bare c) : Tame (.string s)
  | object {members : List (String × Json)} (hkeys : ∀ m ∈ members, KeyText m.1)
      (hvalues : ∀ m ∈ members, Tame m.2) : Tame (.object members)

mutual

/-- The tokens of a value in YAML. -/
def flowTokens : Json → List Token
  | .null => [.scalar .plain "null"]
  | .bool true => [.scalar .plain "true"]
  | .bool false => [.scalar .plain "false"]
  | .number n => [.scalar .plain (String.ofList n.chars)]
  | .string s => [.scalar .quoted s]
  | .array items => .beginSequence :: itemTokens items ++ [.endSequence]
  | .object members => .beginMapping :: entryTokens members ++ [.endMapping]

/-- The tokens of the items of an array. -/
def itemTokens : List Json → List Token
  | [] => []
  | [v] => flowTokens v
  | v :: w :: items => flowTokens v ++ .flowEntry :: itemTokens (w :: items)

/-- The tokens of the members of an object. -/
def entryTokens : List (String × Json) → List Token
  | [] => []
  | [(name, v)] => [.key, .scalar .quoted name, .value] ++ flowTokens v
  | (name, v) :: m :: members =>
      [.key, .scalar .quoted name, .value] ++ flowTokens v ++
        .flowEntry :: entryTokens (m :: members)

end

/-- The characters of a value. -/
def textOf (v : Json) : List Char := v.tokens.flatMap Json.Token.chars

/-- The characters of the members of an object. -/
def membersText (members : List (String × Json)) : List Char :=
  (Json.memberTokens members).flatMap Json.Token.chars

theorem textOf_object (members : List (String × Json)) :
    textOf (.object members) = ['{'] ++ membersText members ++ ['\x7d'] := by
  simp [textOf, membersText, Json.tokens, Json.Token.chars]

theorem textOf_number (n : Nat) : textOf (.number (.ofNat n)) = Nat.toDigits 10 n := by
  simp [textOf, Json.tokens, Json.Token.chars, Json.Numeral.chars_ofNat]

theorem textOf_string (s : String) : textOf (.string s) = Json.quote s := by
  simp [textOf, Json.tokens, Json.Token.chars]

theorem membersText_singleton (name : String) (v : Json) :
    membersText [(name, v)] = (Json.quote name ++ [':']) ++ textOf v := by
  simp [textOf, membersText, Json.memberTokens, Json.Token.chars]

theorem membersText_cons (name : String) (v : Json) (m : String × Json)
    (members : List (String × Json)) :
    membersText ((name, v) :: m :: members) =
      (Json.quote name ++ [':']) ++ textOf v ++ ([','] ++ membersText (m :: members)) := by
  simp [textOf, membersText, Json.memberTokens, Json.Token.chars]

/-- The text of a value leads behind it, where the next mark is one that ends an entry. -/
def Flows (v : Json) : Prop :=
  ∀ (depth : Nat) {mark : Char}, mark = ',' ∨ mark = '\x7d' → ∀ rest : List Char,
    Lexer.Leads (depth + 1) (depth + 1) false false (textOf v) (flowTokens v) (mark :: rest)

theorem leads_members {members : List (String × Json)}
    (hkeys : ∀ m ∈ members, KeyText m.1) (hvalues : ∀ m ∈ members, Flows m.2)
    (hnonempty : members ≠ []) (depth : Nat) (rest : List Char) :
    Lexer.Leads (depth + 1) (depth + 1) true false (membersText members) (entryTokens members)
      ('\x7d' :: rest) := by
  induction members with
  | nil => exact absurd rfl hnonempty
  | cons m members ih =>
      have hvalue : Flows m.2 := hvalues m List.mem_cons_self
      have hkey := Lexer.leads_key (hkeys m List.mem_cons_self) depth
      obtain ⟨name, v⟩ := m
      -- A name is a key only with its colon, so both are taken together, and then the value.
      cases members with
      | nil =>
          rw [membersText_singleton]
          exact (hkey _).trans (hvalue depth (Or.inr rfl) rest)
      | cons other members =>
          have hothers := ih (fun m hm => hkeys m (List.mem_cons_of_mem _ hm))
            (fun m hm => hvalues m (List.mem_cons_of_mem _ hm)) (List.cons_ne_nil _ _)
          have hentry := (hkey _).trans
            (hvalue depth (Or.inl rfl) (membersText (other :: members) ++ '\x7d' :: rest))
          rw [membersText_cons]
          exact hentry.trans ((Lexer.leads_comma (depth + 1) false _).trans hothers)

theorem leads_object {members : List (String × Json)}
    (hkeys : ∀ m ∈ members, KeyText m.1) (hvalues : ∀ m ∈ members, Flows m.2)
    (depth : Nat) (keyAllowed : Bool) (rest : List Char) :
    Lexer.Leads depth depth keyAllowed false (textOf (.object members))
      (flowTokens (.object members)) rest := by
  have hopen := Lexer.leads_open depth keyAllowed
  rw [textOf_object]
  cases members with
  | nil => exact (hopen _).trans (Lexer.leads_close depth true rest)
  | cons m members =>
      have hmembers := leads_members hkeys hvalues (List.cons_ne_nil _ _) depth rest
      exact ((hopen _).trans hmembers).trans (Lexer.leads_close depth false rest)

theorem Tame.flows {v : Json} (h : Tame v) : Flows v := by
  induction h with
  | number n =>
      intro depth mark hmark rest
      rw [textOf_number, flowTokens, Json.Numeral.chars_ofNat]
      exact Lexer.leads_number n depth false hmark rest
  | @string s hs =>
      intro depth mark _ rest
      rw [textOf_string]
      exact Lexer.leads_string hs (depth + 1) false (mark :: rest)
  | object hkeys _ ih =>
      intro depth mark _ rest
      exact leads_object hkeys ih (depth + 1) false (mark :: rest)

/-! ## Texts -/

theorem visible_quote {s : String} (hs : ∀ c ∈ s.toList, Bare c) :
    ∀ c ∈ Json.quote s, Visible c := by
  rw [quote_of_bare hs]
  intro c hc
  rcases List.mem_append.mp hc with hc | hc
  · rcases List.mem_cons.mp hc with rfl | hc
    · decide
    · exact (hs c hc).1
  · rw [List.mem_singleton.mp hc]
    decide

theorem visible_members {members : List (String × Json)}
    (hkeys : ∀ m ∈ members, KeyText m.1) (hvalues : ∀ m ∈ members, ∀ c ∈ textOf m.2, Visible c) :
    ∀ c ∈ membersText members, Visible c := by
  induction members with
  | nil => exact fun c hc => absurd hc List.not_mem_nil
  | cons m members ih =>
      have hname := visible_quote (hkeys m List.mem_cons_self).1
      have hvalue := hvalues m List.mem_cons_self
      have hothers := ih (fun m hm => hkeys m (List.mem_cons_of_mem _ hm))
        (fun m hm => hvalues m (List.mem_cons_of_mem _ hm))
      obtain ⟨name, v⟩ := m
      intro c hc
      cases members with
      | nil =>
          rw [membersText_singleton, List.mem_append, List.mem_append, List.mem_singleton] at hc
          obtain (hc | rfl) | hc := hc
          · exact hname c hc
          · decide
          · exact hvalue c hc
      | cons other members =>
          rw [membersText_cons, List.mem_append, List.mem_append, List.mem_append, List.mem_append,
            List.mem_singleton, List.mem_singleton] at hc
          obtain ((hc | rfl) | hc) | rfl | hc := hc
          · exact hname c hc
          · decide
          · exact hvalue c hc
          · decide
          · exact hothers c hc

/-- All characters of a tame value are visible. -/
theorem Tame.visible {v : Json} (h : Tame v) : ∀ c ∈ textOf v, Visible c := by
  induction h with
  | number n =>
      rw [textOf_number]
      exact fun c hc => (bare_toDigits (by decide) (by decide) n c hc).1
  | @string s hs =>
      rw [textOf_string]
      exact visible_quote hs
  | object hkeys _ ih =>
      rw [textOf_object]
      intro c hc
      rw [List.mem_append, List.mem_append, List.mem_singleton, List.mem_singleton] at hc
      obtain (rfl | hc) | rfl := hc
      · decide
      · exact visible_members hkeys ih c hc
      · decide

/-- At the end of the text, a lexer finishes with the tokens it has found. -/
theorem Lexer.Stands.run_end {lexer : Lexer} {depth : Nat} {keyAllowed : Bool} {tokens : List Token}
    (h : lexer.Stands depth keyAllowed [] tokens) (more : Nat) :
    (run (more + 1) lexer).map Array.toList = some tokens := by
  obtain ⟨fresh, hstep, hfresh, -⟩ := h.step_eq_elim fun c hc => by cases hc
  have hblocks : fresh.closeBlocks none = fresh := closeBlocks_of_indents_eq_nil hfresh.indents none
  have hfinish : fresh.finish = some { fresh with site := none, finished := true } := by
    simp [finish, hblocks, hfresh.dropSite_eq]
  rw [run, hstep, List.head?_nil, Option.elim_none, hfinish]
  simp [hfresh.tokens]

/-- A text of visible characters goes to the lexer as it is. -/
theorem tokens?_of_visible {text : String} (h : ∀ c ∈ text.toList, Visible c) :
    tokens? text = (Lexer.run (text.toList.length + 1) { cursor := { rest := text.toList } }).map
      Array.toList := by
  have hallowed : text.toList.all isAllowed = true := by
    rw [List.all_eq_true]
    exact fun c hc => (h c hc).isAllowed_eq
  have hbreaks := uniformBreaks_of_visible h
  cases htext : text.toList with
  | nil => simp [tokens?, htext, uniformBreaks]
  | cons c cs =>
      rw [htext] at h hallowed hbreaks
      have hmark : c ≠ byteOrderMark := (h c List.mem_cons_self).ne (by decide)
      rw [tokens?]
      simp only [htext, hmark, if_false, hallowed, if_true, hbreaks]

/-- **The text of a tame object has the tokens of the object in YAML.** -/
theorem tokens?_render {members : List (String × Json)} (h : Tame (.object members)) :
    tokens? (Json.object members).render = some (flowTokens (.object members)) := by
  have hchars : (Json.object members).render.toList = textOf (.object members) :=
    String.toList_ofList
  have hvisible := h.visible
  rw [← hchars] at hvisible
  rw [tokens?_of_visible hvisible, hchars]
  generalize htext : textOf (.object members) = text
  have hstart : Lexer.Stands { cursor := { rest := text } } 0 true (text ++ []) [] :=
    ⟨(List.append_nil text).symm, rfl, rfl, rfl, rfl, fun s hs => absurd hs List.not_mem_nil, rfl,
      rfl⟩
  cases h with
  | object hkeys hvalues =>
      have hleads := leads_object hkeys (fun m hm => (hvalues m hm).flows) 0 true []
      rw [htext] at hleads
      obtain ⟨count, last, hcount, hsteps, hlast⟩ := hleads _ _ hstart
      -- There are no more steps than characters, so one is left to find the end.
      have hsum : count + (text.length - count + 1) = text.length + 1 := by omega
      rw [← hsum, hsteps.run_eq]
      exact hlast.run_end (text.length - count)

end Yaml

end Switchboard
