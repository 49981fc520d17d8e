import Switchboard.Proofs.Json.Grammar

/-!
# Reading the tokens of a value

The parser puts a value together from its tokens wherever there is room for it
(`Within.run?_parser`), and it takes no other tokens: what is open and what has been put into it
says which tokens have been read (`Parser.Reads`), and that stays so with each of them
(`Parser.Reads.step`). It therefore accepts exactly the tokens of the values in which no more arrays
and objects lie inside each other than it admits (`ofTokens?_eq_some_iff`).
-/

namespace Switchboard

namespace Json

/-! ## Tokens that are read -/

namespace Parser

/-- The value of a list of tokens, read from some point on. -/
def run? (parser : Parser) (tokens : List Token) : Option Json :=
  (tokens.foldlM step parser).bind finish?

theorem run?_cons (parser : Parser) (token : Token) (tokens : List Token) :
    parser.run? (token :: tokens) = (parser.step token).bind fun next => next.run? tokens := by
  simp only [run?, List.foldlM_cons, Option.bind_eq_bind, Option.bind_assoc]

/-- A token that is read without fault. -/
theorem run?_of_step {parser next : Parser} {token : Token} (h : parser.step token = some next)
    (tokens : List Token) : parser.run? (token :: tokens) = next.run? tokens := by
  rw [run?_cons, h, Option.bind_some]

end Parser

/-- The parser puts a value together from its tokens wherever there is room for it. -/
def Parses (depth : Nat) (v : Json) : Prop :=
  ∀ stack rest, stack.length + depth ≤ maxDepth →
    Parser.run? ⟨stack, .value⟩ (v.tokens ++ rest) =
      (Parser.complete v stack).bind fun next => next.run? rest

/-- The tokens of a value do not begin with the end of an array. -/
theorem tokens_eq_cons (v : Json) : ∃ token more, v.tokens = token :: more ∧ token ≠ .endArray := by
  cases v <;> rw [tokens] <;> exact ⟨_, _, rfl, by simp⟩

theorem run?_firstItem (v : Json) (stack : List Open) (rest : List Token) :
    Parser.run? ⟨stack, .firstItem⟩ (v.tokens ++ rest) =
      Parser.run? ⟨stack, .value⟩ (v.tokens ++ rest) := by
  obtain ⟨token, more, htokens, hne⟩ := tokens_eq_cons v
  have hstep : Parser.step ⟨stack, .firstItem⟩ token = Parser.step ⟨stack, .value⟩ token := by
    simp only [Parser.step, if_neg hne]
  rw [htokens, List.cons_append, Parser.run?_cons, Parser.run?_cons, hstep]

section

variable {depth : Nat} {stack : List Open} (hroom : stack.length + 1 + depth ≤ maxDepth)

include hroom

/-- Items behind those that have been read, up to the end of their array. -/
theorem run?_items {v : Json} {items : List Json} (hitems : ∀ w ∈ v :: items, w.Parses depth)
    (done : List Json) (rest : List Token) :
    Parser.run? ⟨.array done :: stack, .value⟩ (itemTokens (v :: items) ++ .endArray :: rest) =
      (Parser.complete (.array (done.reverse ++ v :: items)) stack).bind
        fun next => next.run? rest := by
  induction items generalizing v done with
  | nil =>
      have hv : v.Parses depth := hitems v List.mem_cons_self
      have hend : Parser.step ⟨.array (v :: done) :: stack, .commaOrEnd⟩ .endArray =
          Parser.complete (.array (v :: done).reverse) stack := rfl
      rw [itemTokens, hv (.array done :: stack) _ hroom, Parser.complete, Option.bind_some,
        Parser.run?_cons, hend, List.reverse_cons]
  | cons w items ih =>
      have hv : v.Parses depth := hitems v List.mem_cons_self
      have hothers : ∀ u ∈ w :: items, u.Parses depth :=
        fun u hu => hitems u (List.mem_cons_of_mem v hu)
      have hcomma : Parser.step ⟨.array (v :: done) :: stack, .commaOrEnd⟩ .comma =
          some ⟨.array (v :: done) :: stack, .value⟩ := rfl
      rw [itemTokens, List.append_assoc, hv (.array done :: stack) _ hroom, Parser.complete,
        Option.bind_some, List.cons_append, Parser.run?_of_step hcomma, ih hothers,
        List.reverse_cons, List.append_assoc, List.singleton_append]

/-- Members behind those that have been read, up to the end of their object. -/
theorem run?_members {m : String × Json} {members : List (String × Json)}
    (hmembers : ∀ o ∈ m :: members, o.2.Parses depth) (done : List (String × Json))
    (rest : List Token) :
    Parser.run? ⟨.object done :: stack, .name⟩ (memberTokens (m :: members) ++ .endObject :: rest) =
      (Parser.complete (.object (done.reverse ++ m :: members)) stack).bind
        fun next => next.run? rest := by
  induction members generalizing m done with
  -- The last member is followed by the end of the object, the others by a comma.
  | nil =>
      obtain ⟨name, v⟩ := m
      have hv : v.Parses depth := hmembers (name, v) List.mem_cons_self
      have hname : Parser.step ⟨.object done :: stack, .name⟩ (.string name) =
          some ⟨.member done name :: stack, .colon⟩ := rfl
      have hcolon : Parser.step ⟨.member done name :: stack, .colon⟩ .colon =
          some ⟨.member done name :: stack, .value⟩ := rfl
      have hend : Parser.step ⟨.object ((name, v) :: done) :: stack, .commaOrEnd⟩ .endObject =
          Parser.complete (.object ((name, v) :: done).reverse) stack := rfl
      rw [memberTokens, List.cons_append, Parser.run?_of_step hname, List.cons_append,
        Parser.run?_of_step hcolon, hv (.member done name :: stack) _ hroom, Parser.complete,
        Option.bind_some, Parser.run?_cons, hend, List.reverse_cons]
  | cons o members ih =>
      obtain ⟨name, v⟩ := m
      have hv : v.Parses depth := hmembers (name, v) List.mem_cons_self
      have hothers : ∀ p ∈ o :: members, p.2.Parses depth :=
        fun p hp => hmembers p (List.mem_cons_of_mem _ hp)
      have hname : Parser.step ⟨.object done :: stack, .name⟩ (.string name) =
          some ⟨.member done name :: stack, .colon⟩ := rfl
      have hcolon : Parser.step ⟨.member done name :: stack, .colon⟩ .colon =
          some ⟨.member done name :: stack, .value⟩ := rfl
      have hcomma : Parser.step ⟨.object ((name, v) :: done) :: stack, .commaOrEnd⟩ .comma =
          some ⟨.object ((name, v) :: done) :: stack, .name⟩ := rfl
      rw [memberTokens, List.append_assoc, List.cons_append, List.cons_append,
        Parser.run?_of_step hname, Parser.run?_of_step hcolon,
        hv (.member done name :: stack) _ hroom, Parser.complete, Option.bind_some,
        List.cons_append, Parser.run?_of_step hcomma, ih hothers, List.reverse_cons,
        List.append_assoc, List.singleton_append]

end

/-- The parser puts a value together from its tokens. -/
theorem Within.run?_parser {depth : Nat} {v : Json} (h : Within depth v) : v.Parses depth := by
  induction h with
  | null => intro stack rest _; rw [tokens]; exact Parser.run?_cons _ _ _
  | bool => intro stack rest _; rw [tokens]; exact Parser.run?_cons _ _ _
  | number => intro stack rest _; rw [tokens]; exact Parser.run?_cons _ _ _
  | string => intro stack rest _; rw [tokens]; exact Parser.run?_cons _ _ _
  | @array depth items _ ih =>
      intro stack rest hroom
      have hlt : stack.length < maxDepth := by omega
      have hstart : Parser.step ⟨stack, .value⟩ .beginArray =
          some ⟨.array [] :: stack, .firstItem⟩ := by
        simp only [Parser.step, Parser.stepValue, Parser.opening, if_pos hlt]
      rw [tokens, List.append_assoc, List.cons_append, List.singleton_append,
        Parser.run?_of_step hstart]
      cases items with
      | nil => rw [itemTokens]; exact Parser.run?_cons _ _ _
      | cons v items =>
          -- Before its first item, an array is parsed as behind a comma.
          have hfirst : Parser.run? ⟨.array [] :: stack, .firstItem⟩
              (itemTokens (v :: items) ++ .endArray :: rest) =
                Parser.run? ⟨.array [] :: stack, .value⟩
                  (itemTokens (v :: items) ++ .endArray :: rest) := by
            cases items with
            | nil => rw [itemTokens]; exact run?_firstItem v _ _
            | cons w items =>
                rw [itemTokens, List.append_assoc]
                exact run?_firstItem v _ _
          rw [hfirst, run?_items (by omega) ih, List.reverse_nil, List.nil_append]
  | @object depth members _ ih =>
      intro stack rest hroom
      have hlt : stack.length < maxDepth := by omega
      have hstart : Parser.step ⟨stack, .value⟩ .beginObject =
          some ⟨.object [] :: stack, .firstName⟩ := by
        simp only [Parser.step, Parser.stepValue, Parser.opening, if_pos hlt]
      rw [tokens, List.append_assoc, List.cons_append, List.singleton_append,
        Parser.run?_of_step hstart]
      cases members with
      | nil => rw [memberTokens]; exact Parser.run?_cons _ _ _
      | cons m members =>
          have hfirst : Parser.run? ⟨.object [] :: stack, .firstName⟩
              (memberTokens (m :: members) ++ .endObject :: rest) =
                Parser.run? ⟨.object [] :: stack, .name⟩
                  (memberTokens (m :: members) ++ .endObject :: rest) := by
            cases members <;> rw [memberTokens] <;> rfl
          rw [hfirst, run?_members (by omega) ih, List.reverse_nil, List.nil_append]

/-! ## Tokens that have been read -/

/-- Items of an array, each with the comma behind it. -/
def itemsBefore (items : List Json) : List Token := items.flatMap fun v => v.tokens ++ [.comma]

/-- Members of an object, each with the comma behind it. -/
def membersBefore (members : List (String × Json)) : List Token :=
  members.flatMap fun m => .string m.1 :: .colon :: m.2.tokens ++ [.comma]

theorem itemTokens_concat (items : List Json) (v : Json) :
    itemTokens (items ++ [v]) = itemsBefore items ++ v.tokens := by
  induction items with
  | nil => simp [itemTokens, itemsBefore]
  | cons w items ih =>
      have hcons :
          itemTokens (w :: (items ++ [v])) = w.tokens ++ .comma :: itemTokens (items ++ [v]) := by
        cases items <;> simp [itemTokens]
      rw [List.cons_append, hcons, ih]
      simp [itemsBefore]

theorem memberTokens_concat (members : List (String × Json)) (name : String) (v : Json) :
    memberTokens (members ++ [(name, v)]) =
      membersBefore members ++ .string name :: .colon :: v.tokens := by
  induction members with
  | nil => simp [memberTokens, membersBefore]
  | cons m members ih =>
      have hcons : memberTokens (m :: (members ++ [(name, v)])) =
          .string m.1 :: .colon :: m.2.tokens ++
            .comma :: memberTokens (members ++ [(name, v)]) := by
        cases members <;> simp [memberTokens]
      rw [List.cons_append, hcons, ih]
      simp [membersBefore]

namespace Parser

/-- The tokens that have been read when what is open awaits a value or a name, innermost last. -/
def frontTokens : List Open → List Token
  | [] => []
  | .array items :: stack => frontTokens stack ++ .beginArray :: itemsBefore items.reverse
  | .object members :: stack => frontTokens stack ++ .beginObject :: membersBefore members.reverse
  | .member members name :: stack =>
      frontTokens stack ++ .beginObject :: membersBefore members.reverse ++ [.string name, .colon]

/-- Each of the arrays and objects that are open awaits a value, and what they hold keeps to the
depth that is left for it. -/
inductive Awaits : List Open → Prop
  | nil : Awaits []
  | array {items : List Json} {stack : List Open} (hstack : Awaits stack)
      (hroom : stack.length < maxDepth)
      (hitems : ∀ v ∈ items, Within (maxDepth - (stack.length + 1)) v) :
      Awaits (.array items :: stack)
  | member {members : List (String × Json)} {name : String} {stack : List Open}
      (hstack : Awaits stack) (hroom : stack.length < maxDepth)
      (hmembers : ∀ m ∈ members, Within (maxDepth - (stack.length + 1)) m.2) :
      Awaits (.member members name :: stack)

/-- The tokens behind which a parser stands. -/
inductive Reads : Parser → List Token → Prop
  | value {stack : List Open} (hstack : Awaits stack) : Reads ⟨stack, .value⟩ (frontTokens stack)
  | firstItem {stack : List Open} (hstack : Awaits (.array [] :: stack)) :
      Reads ⟨.array [] :: stack, .firstItem⟩ (frontTokens (.array [] :: stack))
  | firstName {stack : List Open} (hstack : Awaits stack) (hroom : stack.length < maxDepth) :
      Reads ⟨.object [] :: stack, .firstName⟩ (frontTokens (.object [] :: stack))
  | name {members : List (String × Json)} {stack : List Open} (hstack : Awaits stack)
      (hroom : stack.length < maxDepth)
      (hmembers : ∀ m ∈ members, Within (maxDepth - (stack.length + 1)) m.2) :
      Reads ⟨.object members :: stack, .name⟩ (frontTokens (.object members :: stack))
  | colon {members : List (String × Json)} {name : String} {stack : List Open}
      (hstack : Awaits (.member members name :: stack)) :
      Reads ⟨.member members name :: stack, .colon⟩
        (frontTokens (.object members :: stack) ++ [.string name])
  | item {v : Json} {items : List Json} {stack : List Open}
      (hstack : Awaits (.array items :: stack))
      (hv : Within (maxDepth - (stack.length + 1)) v) :
      Reads ⟨.array (v :: items) :: stack,
        .commaOrEnd⟩ (frontTokens (.array items :: stack) ++ v.tokens)
  | member {name : String} {v : Json} {members : List (String × Json)} {stack : List Open}
      (hstack : Awaits (.member members name :: stack))
      (hv : Within (maxDepth - (stack.length + 1)) v) :
      Reads ⟨.object ((name, v) :: members) :: stack, .commaOrEnd⟩
        (frontTokens (.member members name :: stack) ++ v.tokens)
  | done {v : Json} (hv : Within maxDepth v) : Reads ⟨[], .done v⟩ v.tokens

/-- A value that is complete is put where it belongs. -/
theorem reads_of_complete {stack : List Open} {v : Json} {next : Parser} (hstack : Awaits stack)
    (hv : Within (maxDepth - stack.length) v) (h : complete v stack = some next) :
    next.Reads (frontTokens stack ++ v.tokens) := by
  cases hstack with
  | nil =>
      cases h
      exact .done hv
  | array hstack hroom hitems =>
      cases h
      exact .item (.array hstack hroom hitems) hv
  | member hstack hroom hmembers =>
      cases h
      exact .member (.member hstack hroom hmembers) hv

theorem depth_left {stack : List Open} (hroom : stack.length < maxDepth) :
    maxDepth - stack.length = maxDepth - (stack.length + 1) + 1 := by
  omega

/-- The end of an array completes it. -/
theorem reads_of_endArray {stack : List Open} {items : List Json} {next : Parser}
    (hstack : Awaits stack) (hroom : stack.length < maxDepth)
    (hitems : ∀ v ∈ items, Within (maxDepth - (stack.length + 1)) v)
    (h : complete (.array items.reverse) stack = some next) :
    next.Reads (frontTokens stack ++ .beginArray :: (itemTokens items.reverse ++ [.endArray])) := by
  have hv : Within (maxDepth - stack.length) (.array items.reverse) := by
    rw [depth_left hroom]
    exact .array fun v hv => hitems v (List.mem_reverse.mp hv)
  have hreads := reads_of_complete hstack hv h
  rwa [tokens, List.cons_append] at hreads

theorem reads_of_endObject {stack : List Open} {members : List (String × Json)} {next : Parser}
    (hstack : Awaits stack) (hroom : stack.length < maxDepth)
    (hmembers : ∀ m ∈ members, Within (maxDepth - (stack.length + 1)) m.2)
    (h : complete (.object members.reverse) stack = some next) :
    next.Reads (frontTokens stack ++ .beginObject :: (memberTokens members.reverse ++
      [.endObject])) := by
  have hv : Within (maxDepth - stack.length) (.object members.reverse) := by
    rw [depth_left hroom]
    exact .object fun m hm => hmembers m (List.mem_reverse.mp hm)
  have hreads := reads_of_complete hstack hv h
  rwa [tokens, List.cons_append] at hreads

theorem reads_of_stepValue {stack : List Open} {token : Token} {next : Parser}
    (hstack : Awaits stack)
    (h : stepValue stack token = some next) : next.Reads (frontTokens stack ++ [token]) := by
  -- A token that is a value by itself.
  have hvalue : ∀ v : Json, (∀ depth, Within depth v) → v.tokens = [token] →
      complete v stack = some next → next.Reads (frontTokens stack ++ [token]) := by
    intro v hv htokens hcomplete
    exact htokens ▸ reads_of_complete hstack (hv _) hcomplete
  cases token with
  | null => exact hvalue .null .null (by rw [tokens]) h
  | bool b => exact hvalue (.bool b) (.bool · b) (by rw [tokens]) h
  | number n => exact hvalue (.number n) (.number · n) (by rw [tokens]) h
  | string s => exact hvalue (.string s) (.string · s) (by rw [tokens]) h
  | beginArray =>
      simp only [stepValue, opening, Option.ite_none_right_eq_some, Option.some.injEq] at h
      obtain ⟨hroom, rfl⟩ := h
      exact .firstItem (.array hstack hroom (List.forall_mem_nil _))
  | beginObject =>
      simp only [stepValue, opening, Option.ite_none_right_eq_some, Option.some.injEq] at h
      obtain ⟨hroom, rfl⟩ := h
      exact .firstName hstack hroom
  | _ => cases h

theorem reads_of_stepName {stack : List Open} {members : List (String × Json)} {token : Token}
    {next : Parser} (hstack : Awaits stack) (hroom : stack.length < maxDepth)
    (hmembers : ∀ m ∈ members, Within (maxDepth - (stack.length + 1)) m.2)
    (h : stepName (.object members :: stack) token = some next) :
    next.Reads (frontTokens (.object members :: stack) ++ [token]) := by
  cases token with
  | string name =>
      cases h
      exact .colon (.member hstack hroom hmembers)
  | _ => cases h

/-- One more token is read behind the others. -/
theorem Reads.step {parser next : Parser} {read : List Token} {token : Token}
    (h : parser.Reads read)
    (hnext : parser.step token = some next) : next.Reads (read ++ [token]) := by
  -- What the parser awaits decides which tokens go on; a comma and an end close the value before
  -- them.
  cases h with
  | value hstack => exact reads_of_stepValue hstack hnext
  | @firstItem stack hstack =>
      simp only [Parser.step] at hnext
      split at hnext
      · rename_i hend
        rw [hend] at hnext ⊢
        cases hstack with
        | array hstack hroom hitems =>
            have hreads := reads_of_endArray hstack hroom hitems hnext
            simpa [frontTokens, itemsBefore, itemTokens] using hreads
      · exact reads_of_stepValue hstack hnext
  | firstName hstack hroom =>
      simp only [Parser.step] at hnext
      split at hnext
      · rename_i hend
        rw [hend] at hnext ⊢
        have hreads := reads_of_endObject hstack hroom (by simp) hnext
        simpa [frontTokens, membersBefore, memberTokens] using hreads
      · exact reads_of_stepName hstack hroom (by simp) hnext
  | name hstack hroom hmembers => exact reads_of_stepName hstack hroom hmembers hnext
  | @colon members name stack hstack =>
      simp only [Parser.step, Option.ite_none_right_eq_some, Option.some.injEq] at hnext
      obtain ⟨rfl, rfl⟩ := hnext
      have hreads := Reads.value hstack
      simpa [frontTokens] using hreads
  | @item v items stack hstack hv =>
      cases hstack with
      | array hstack hroom hitems =>
          have hall : ∀ w ∈ v :: items, Within (maxDepth - (stack.length + 1)) w :=
            List.forall_mem_cons.mpr ⟨hv, hitems⟩
          simp only [Parser.step] at hnext
          split at hnext
          · rename_i hcomma
            cases hnext
            have hreads := Reads.value (.array hstack hroom hall)
            simpa [frontTokens, itemsBefore, hcomma] using hreads
          · cases token with
            | endArray =>
                have hreads := reads_of_endArray hstack hroom hall hnext
                rw [List.reverse_cons, itemTokens_concat] at hreads
                simpa [frontTokens] using hreads
            | _ => cases hnext
  | @member name v members stack hstack hv =>
      cases hstack with
      | member hstack hroom hmembers =>
          have hall : ∀ m ∈ (name, v) :: members, Within (maxDepth - (stack.length + 1)) m.2 :=
            List.forall_mem_cons.mpr ⟨hv, hmembers⟩
          simp only [Parser.step] at hnext
          split at hnext
          · rename_i hcomma
            cases hnext
            have hreads := Reads.name hstack hroom hall
            simpa [frontTokens, membersBefore, hcomma] using hreads
          · cases token with
            | endObject =>
                have hreads := reads_of_endObject hstack hroom hall hnext
                rw [List.reverse_cons, memberTokens_concat] at hreads
                simpa [frontTokens] using hreads
            | _ => cases hnext
  | done => cases hnext

theorem Reads.run {parser : Parser} {read rest : List Token} {v : Json} (h : parser.Reads read)
    (hrun : parser.run? rest = some v) : read ++ rest = v.tokens ∧ Within maxDepth v := by
  induction rest generalizing parser read with
  | nil =>
      have hfinish : parser.finish? = some v := hrun
      cases h with
      | done hv =>
          cases hfinish
          exact ⟨List.append_nil _, hv⟩
      | _ => cases hfinish
  | cons token rest ih =>
      rw [run?_cons, Option.bind_eq_some_iff] at hrun
      obtain ⟨next, hstep, hmore⟩ := hrun
      have hread := ih (h.step hstep) hmore
      rwa [List.append_assoc, List.singleton_append] at hread

end Parser

/-- The parser takes exactly the tokens of the values in which no more arrays and objects lie inside
each other than it admits. -/
theorem ofTokens?_eq_some_iff {tokens : List Token} {v : Json} :
    ofTokens? tokens = some v ↔ tokens = v.tokens ∧ Within maxDepth v := by
  constructor
  · intro h
    exact (Parser.Reads.value .nil).run h
  · rintro ⟨rfl, hv⟩
    have hparse := hv.run?_parser [] [] (by simp)
    rw [List.append_nil] at hparse
    simpa [ofTokens?, Parser.run?, Parser.start, Parser.complete, Parser.finish?] using hparse

end Json

end Switchboard
