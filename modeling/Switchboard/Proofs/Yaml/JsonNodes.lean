import Mathlib
import Switchboard.Proofs.Yaml.JsonText

/-!
# JSON texts as YAML documents

The text of a tame JSON object is a YAML document that holds the same object (`document?_render`):
one mapping whose keys are the names of the members and whose values are those of the members. The
reader of nodes is given the tokens of a value with others behind them, and takes exactly the
former. It needs a depth of twice their number at most.
-/

namespace Switchboard

namespace Yaml

namespace NodeReader

/-! ## Single readers -/

theorem node_scalar (loose : Bool) (depth : Nat) (style : ScalarStyle) (text : String)
    (source : Source) (rest : List Token) :
    (node loose (depth + 1)).run { source with tokens := .scalar style text :: rest } =
      some (.scalar style none text, { source with tokens := rest }) := by
  simp [node, peek, skip, properties, named]

theorem node_mapping (loose : Bool) (depth : Nat) (source : Source) (rest : List Token) :
    (node loose (depth + 1)).run { source with tokens := .beginMapping :: rest } =
      ((flowEntries true depth).run { source with tokens := rest }).map fun found =>
        (.mapping found.1, found.2) := by
  simp [node, peek, skip, properties, named]

/-- Where a node begins, a part of a flow collection is that node. -/
theorem flowPart_eq {depth : Nat} {source : Source} (h : endsInFlow source.tokens.head? = false) :
    (flowPart (depth + 1)).run source = (node false depth).run source := by
  simp [flowPart, peek, h]

theorem flowValue_eq (depth : Nat) (source : Source) (rest : List Token) :
    (flowValue (depth + 1)).run { source with tokens := .value :: rest } =
      (flowPart depth).run { source with tokens := rest } := by
  simp [flowValue, accept, peek, skip]

theorem flowEntries_end (first : Bool) (depth : Nat) (source : Source) (rest : List Token) :
    (flowEntries first (depth + 1)).run { source with tokens := .endMapping :: rest } =
      some ([], { source with tokens := rest }) := by
  simp [flowEntries, accept, peek, skip]

theorem flowEntries_first (depth : Nat) (source : Source) (rest : List Token) :
    (flowEntries true (depth + 1)).run { source with tokens := .key :: rest } =
      ((flowPart depth).run { source with tokens := rest }).bind fun (key, source) =>
        ((flowValue depth).run source).bind fun (value, source) =>
          ((flowEntries false depth).run source).map fun (entries, source) =>
            ((key, value) :: entries, source) := by
  simp [flowEntries, accept, peek, skip]

theorem flowEntries_next (depth : Nat) (source : Source) (rest : List Token) :
    (flowEntries false (depth + 1)).run { source with tokens := .flowEntry :: .key :: rest } =
      (flowEntries true (depth + 1)).run { source with tokens := .key :: rest } := by
  simp [flowEntries, accept, expect, peek, skip]

end NodeReader

/-! ## Values -/

mutual

/-- A value as a node. -/
def nodeOf : Json → Node
  | .null => .scalar .plain none "null"
  | .bool true => .scalar .plain none "true"
  | .bool false => .scalar .plain none "false"
  | .number n => .scalar .plain none (String.ofList n.chars)
  | .string s => .scalar .quoted none s
  | .array items => .sequence (itemNodes items)
  | .object members => .mapping (entryNodes members)

/-- The items of an array as nodes. -/
def itemNodes : List Json → List Node
  | [] => []
  | v :: items => nodeOf v :: itemNodes items

/-- The members of an object as nodes. -/
def entryNodes : List (String × Json) → List (Node × Node)
  | [] => []
  | (name, v) :: members => (.scalar .quoted none name, nodeOf v) :: entryNodes members

end

/-- The tokens of a value are read as the node of the value. -/
def Reads (v : Json) : Prop :=
  ∀ depth : Nat, 2 * (flowTokens v).length ≤ depth → ∀ (source : Source) (rest : List Token),
    (NodeReader.node false depth).run { source with tokens := flowTokens v ++ rest } =
      some (nodeOf v, { source with tokens := rest })

theorem not_endsInFlow_flowTokens (v : Json) (rest : List Token) :
    NodeReader.endsInFlow (flowTokens v ++ rest).head? = false := by
  cases v with
  | bool b => cases b <;> rfl
  | _ => rfl

/-- An entry takes its key and its value, and leaves the other entries. -/
theorem flowEntries_entry {v : Json} (hv : Reads v) {depth : Nat}
    (hdepth : 2 * (flowTokens v).length + 2 ≤ depth) (name : String) (source : Source)
    (rest : List Token) :
    (NodeReader.flowEntries true (depth + 1)).run
        { source with tokens := [.key, .scalar .quoted name, .value] ++ flowTokens v ++ rest } =
      ((NodeReader.flowEntries false depth).run { source with tokens := rest }).map
        fun (entries, source) => ((.scalar .quoted none name, nodeOf v) :: entries, source) := by
  -- A value lies two readers deeper than its entry.
  obtain ⟨d, rfl⟩ : ∃ d, depth = d + 2 := ⟨depth - 2, by omega⟩
  have hkey : (NodeReader.flowPart (d + 2)).run
      { source with tokens := .scalar .quoted name :: .value :: (flowTokens v ++ rest) } =
        some (.scalar .quoted none name,
          { source with tokens := .value :: (flowTokens v ++ rest) }) := by
    rw [NodeReader.flowPart_eq rfl, NodeReader.node_scalar]
  have hvalue : (NodeReader.flowValue (d + 2)).run
      { source with tokens := .value :: (flowTokens v ++ rest) } =
        some (nodeOf v, { source with tokens := rest }) := by
    rw [NodeReader.flowValue_eq, NodeReader.flowPart_eq (not_endsInFlow_flowTokens v rest)]
    exact hv d (by omega) source rest
  simp only [List.cons_append, List.nil_append]
  rw [NodeReader.flowEntries_first, hkey]
  simp only [Option.bind_some, hvalue]

theorem exists_entryTokens_cons (m : String × Json) (members : List (String × Json)) :
    ∃ tail, entryTokens (m :: members) = .key :: tail := by
  obtain ⟨name, v⟩ := m
  cases members with
  | nil => exact ⟨_, by rw [entryTokens]; rfl⟩
  | cons other members => exact ⟨_, by rw [entryTokens]; rfl⟩

theorem flowEntries_members {members : List (String × Json)} (hvalues : ∀ m ∈ members, Reads m.2)
    {depth : Nat} (hdepth : 2 * (entryTokens members).length + 1 ≤ depth) (source : Source)
    (rest : List Token) :
    (NodeReader.flowEntries true depth).run
        { source with tokens := entryTokens members ++ .endMapping :: rest } =
      some (entryNodes members, { source with tokens := rest }) := by
  induction members generalizing depth with
  | nil =>
      obtain ⟨d, rfl⟩ : ∃ d, depth = d + 1 := ⟨depth - 1, by omega⟩
      exact NodeReader.flowEntries_end true d source rest
  | cons m members ih =>
      obtain ⟨name, v⟩ := m
      have hv : Reads v := hvalues (name, v) List.mem_cons_self
      cases members with
      | nil =>
          rw [entryTokens] at hdepth ⊢
          simp only [List.length_append, List.length_cons, List.length_nil] at hdepth
          obtain ⟨d, rfl⟩ : ∃ d, depth = d + 2 := ⟨depth - 2, by omega⟩
          rw [flowEntries_entry hv (by omega), NodeReader.flowEntries_end]
          rfl
      | cons other members =>
          obtain ⟨tail, htail⟩ := exists_entryTokens_cons other members
          rw [entryTokens] at hdepth ⊢
          simp only [List.length_append, List.length_cons, List.length_nil] at hdepth
          obtain ⟨d, rfl⟩ : ∃ d, depth = d + 2 := ⟨depth - 2, by omega⟩
          have hroom : 2 * (entryTokens (other :: members)).length + 1 ≤ d + 1 := by omega
          have hothers := ih (fun m hm => hvalues m (List.mem_cons_of_mem _ hm)) hroom
          -- Behind a comma the others are read as if they came first.
          have hnext := NodeReader.flowEntries_next d source (tail ++ .endMapping :: rest)
          rw [htail, List.cons_append] at hothers
          rw [List.append_assoc, flowEntries_entry hv (by omega), htail, List.cons_append,
            List.cons_append, hnext, hothers]
          rfl

theorem Tame.reads {v : Json} (h : Tame v) : Reads v := by
  induction h with
  | number n =>
      intro depth hdepth source rest
      obtain ⟨d, rfl⟩ : ∃ d, depth = d + 1 := ⟨depth - 1, by simp [flowTokens] at hdepth; omega⟩
      exact NodeReader.node_scalar false d .plain _ source rest
  | @string s _ =>
      intro depth hdepth source rest
      obtain ⟨d, rfl⟩ : ∃ d, depth = d + 1 := ⟨depth - 1, by simp [flowTokens] at hdepth; omega⟩
      exact NodeReader.node_scalar false d .quoted s source rest
  | @object members _ _ ih =>
      intro depth hdepth source rest
      simp only [flowTokens, List.length_append, List.length_cons, List.length_nil] at hdepth
      obtain ⟨d, rfl⟩ : ∃ d, depth = d + 1 := ⟨depth - 1, by omega⟩
      have hentries := flowEntries_members ih (by omega : 2 * (entryTokens members).length + 1 ≤ d)
        source rest
      rw [flowTokens, List.cons_append, List.cons_append, List.append_assoc,
        NodeReader.node_mapping]
      simp only [List.cons_append, List.nil_append, hentries, Option.map_some, nodeOf]

/-- A document that begins with a brace consists of one node. -/
theorem NodeReader.document_mapping (depth : Nat) (source : Source) (rest : List Token) :
    (document depth).run { source with tokens := .beginMapping :: rest } =
      (node false depth).run
        { source with tokens := .beginMapping :: rest, handles := standardHandles } := by
  simp [document, isDirective, accept, peek]

/-- **The text of a tame object is read in YAML as the object.** -/
theorem document?_render {members : List (String × Json)} (h : Tame (.object members)) :
    document? (Json.object members).render = some (some (nodeOf (.object members))) := by
  obtain ⟨tail, htail⟩ : ∃ tail, flowTokens (.object members) = .beginMapping :: tail :=
    ⟨_, by rw [flowTokens]; rfl⟩
  -- The node takes all tokens, so that nothing is left behind the document.
  have hread := h.reads (2 * (flowTokens (.object members)).length + 2) (by omega)
    { tokens := [], handles := NodeReader.standardHandles } []
  have hdocument := NodeReader.document_mapping (2 * (flowTokens (.object members)).length + 2)
    { tokens := [] } tail
  rw [List.append_nil] at hread
  rw [← htail, hread] at hdocument
  have hnonempty : (flowTokens (.object members)).isEmpty = false := by rw [htail]; rfl
  rw [document?, tokens?_render h]
  simp only [Option.bind_eq_bind, Option.bind_some, hnonempty, Bool.false_eq_true, if_false,
    hdocument, List.all_nil, if_true]

end Yaml

end Switchboard
