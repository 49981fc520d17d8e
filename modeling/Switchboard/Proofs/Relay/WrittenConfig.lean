import Switchboard.Proofs.Json.RoundTrip
import Switchboard.Proofs.Net.AddressText
import Switchboard.Proofs.Yaml.JsonNodes
import Switchboard.Relay.Config

/-!
# Configurations that were written

A configuration that is written out is read back as it was, and so is its address, from a file or
from the environment (`Config.bindAddress_readBack`). The text that is written is JSON and the
reader is one of YAML, so the text has to be one that means the same to both
(`Yaml.document?_render`): the characters of an address are bare, and numbers have no leading zeros.
-/

namespace Switchboard

open Yaml (Bare bare_toDigits)

/-! ## Addresses -/

theorem bare_decimal (n : Nat) : ∀ c ∈ IPv4.decimal n, Bare c :=
  bare_toDigits (by decide) (by decide) n

theorem IPv4.bare_chars (ip : IPv4) : ∀ c ∈ ip.chars, Bare c := by
  have hpoint : Bare '.' := by decide
  simp only [chars, List.append_assoc, List.cons_append, List.forall_mem_append,
    List.forall_mem_cons]
  exact ⟨bare_decimal _, hpoint, bare_decimal _, hpoint, bare_decimal _, hpoint, bare_decimal _⟩

theorem IPv6.bare_joinGroups (gs : List UInt16) : ∀ c ∈ joinGroups gs, Bare c := by
  have hgroup (g : UInt16) : ∀ c ∈ groupChars g, Bare c := bare_toDigits (by decide) (by decide) _
  have hcolon : Bare ':' := by decide
  induction gs with
  | nil => exact fun c hc => absurd hc List.not_mem_nil
  | cons g gs ih =>
      cases gs with
      | nil => exact hgroup g
      | cons h gs =>
          rw [joinGroups, List.forall_mem_append, List.forall_mem_cons]
          exact ⟨hgroup g, hcolon, ih⟩

theorem IPv6.bare_chars (ip : IPv6) : ∀ c ∈ ip.chars, Bare c := by
  have hcolon : Bare ':' := by decide
  cases hmapped : ip.mapped? with
  | some v4 =>
      have hf : Bare 'f' := by decide
      simp only [chars, hmapped, List.cons_append, List.nil_append, List.forall_mem_cons]
      exact ⟨hcolon, hcolon, hf, hf, hf, hf, hcolon, v4.bare_chars⟩
  | none =>
      simp only [chars, hmapped]
      split
      · simp only [List.append_assoc, List.cons_append, List.nil_append, List.forall_mem_append,
          List.forall_mem_cons]
        exact ⟨bare_joinGroups _, hcolon, hcolon, bare_joinGroups _⟩
      · exact bare_joinGroups ip.groups

/-- An address is written in characters that stand for themselves in a string. -/
theorem SocketAddress.bare_render (address : SocketAddress) :
    ∀ c ∈ address.render.toList, Bare c := by
  rw [render, String.toList_ofList]
  cases address with
  | v4 ip port =>
      have hcolon : Bare ':' := by decide
      rw [chars, List.forall_mem_append, List.forall_mem_cons]
      exact ⟨ip.bare_chars, hcolon, bare_decimal _⟩
  | v6 ip port scope =>
      have hopen : Bare '[' := by decide
      have hclose : Bare ']' := by decide
      have hcolon : Bare ':' := by decide
      have hscope : ∀ c ∈ (if scope = 0 then [] else '%' :: IPv4.decimal scope.toNat), Bare c := by
        split
        · exact fun c hc => absurd hc List.not_mem_nil
        · rw [List.forall_mem_cons]
          exact ⟨by decide, bare_decimal _⟩
      simp only [chars, List.cons_append, List.forall_mem_append, List.forall_mem_cons]
      exact ⟨hopen, ⟨⟨ip.bare_chars, hscope⟩, hclose, hcolon, List.forall_mem_nil _⟩,
        bare_decimal _⟩

/-! ## Numbers -/

namespace Settings

/-- Digits alone are read in base ten: none of them is a sign or the mark of another base. -/
theorem scalarWord?_digits {ds : List Nat} (hds : ∀ d ∈ ds, d < 10)
    (hidle : hasIdleZero (ds.map Nat.digitChar) = false) :
    scalarWord? (ds.map Nat.digitChar) = Digits.word? 10 (ds.map Nat.digitChar) := by
  have hdigit : ∀ d < 10, Nat.digitChar d ≠ '+' ∧ Nat.digitChar d ≠ 'x' ∧ Nat.digitChar d ≠ 'o' ∧
      Nat.digitChar d ≠ 'b' := by decide
  -- The first digit could be a sign, the second the mark of a base.
  cases ds with
  | nil => rfl
  | cons d ds =>
      obtain ⟨hplus, -⟩ := hdigit d (hds d List.mem_cons_self)
      cases ds with
      | nil =>
          rw [List.map_singleton] at hidle ⊢
          simp [scalarWord?, hplus, hidle]
      | cons e ds =>
          obtain ⟨-, hx, ho, hb⟩ := hdigit e (hds e (List.mem_cons_of_mem d List.mem_cons_self))
          rw [List.map_cons, List.map_cons] at hidle ⊢
          simp [scalarWord?, hplus, hx, ho, hb, hidle]

/-- A word in decimal digits is read as the word. -/
theorem scalarWord?_toDigits (word : UInt64) :
    scalarWord? (Nat.toDigits 10 word.toNat) = some word := by
  have hword := Digits.word?_toDigits word
  obtain ⟨ds, hds, hspelled⟩ := Digits.toDigits_spelled (by decide : 1 < 10) word.toNat
  have hidle : hasIdleZero (ds.map Nat.digitChar) = false := by
    have hzero : ∀ d < 10, Nat.digitChar d = '0' → d = 0 := by decide
    cases ds with
    | nil => rfl
    | cons d ds =>
        -- Only zero itself begins with a zero, and it has no other digit.
        by_cases hd : Nat.digitChar d = '0'
        · have hlead :=
            hspelled.lead (congrArg some (hzero d (hspelled.below d List.mem_cons_self) hd))
          have hlength : ds.length = 0 := Nat.succ.inj hlead
          simp [hasIdleZero, hlength]
        · simp [hasIdleZero, hd]
  rw [hds] at hword ⊢
  rw [scalarWord?_digits hspelled.below hidle, hword]

end Settings

/-! ## Files -/

namespace Config

/-- The text of a configuration means the same in YAML. -/
theorem tame_toJson (config : Config) : Yaml.Tame config.toJson := by
  have hnumber (word : UInt64) : Yaml.Tame (.number (.ofNat word.toNat)) := .number word.toNat
  have haddress : Yaml.Tame (.string config.bindAddress.render) :=
    .string config.bindAddress.bare_render
  have hnetwork : ∀ name ∈ ["bind_addr", "idle_timeout_secs", "max_connections"],
      Yaml.KeyText name := by decide
  have hrouting : ∀ name ∈ ["sweep_interval_ms", "outbound_queue"], Yaml.KeyText name := by decide
  have hsections : ∀ name ∈ ["network", "routing"], Yaml.KeyText name := by decide
  simp only [List.forall_mem_cons] at hnetwork hrouting hsections
  refine .object (by simpa [toJson] using hsections) ?_
  simp only [List.forall_mem_cons]
  refine ⟨.object (by simpa using hnetwork) ?_, .object (by simpa using hrouting) ?_,
    List.forall_mem_nil _⟩
  · simp [haddress, hnumber]
  · simp [hnumber]

/-- All settings of a configuration. -/
def given (config : Config) : Settings where
  bindAddress := some config.bindAddress
  idleTimeoutSecs := some config.idleTimeoutSecs
  maxConnections := some config.maxConnections
  sweepIntervalMs := some config.sweepIntervalMs
  outboundQueue := some config.outboundQueue

/-- The text of a configuration gives all its settings. -/
theorem ofText?_render_toJson (config : Config) :
    Settings.ofText? config.toJson.render = some config.given := by
  have hnumber (word : UInt64) : Settings.number? (.scalar .plain none
      (String.ofList (Json.Numeral.ofNat word.toNat).chars)) = some word := by
    rw [Json.Numeral.chars_ofNat]
    simp [Settings.number?, Settings.scalarWord?_toDigits]
  have haddress : Settings.address? (.scalar .quoted none config.bindAddress.render) =
      some config.bindAddress := config.bindAddress.parse?_render
  have hdocument := Yaml.document?_render config.tame_toJson
  rw [Settings.ofText?, toJson, hdocument]
  simp [Yaml.nodeOf, Yaml.entryNodes, Settings.section?, Settings.addSection, Settings.addNetwork,
    Settings.addRouting, Settings.once, hnumber, haddress, given]

/-- A file with the text of a configuration gives the configuration. -/
theorem ofFile_render_toJson (config : Config) (environment : Settings.Environment)
    (path : String) :
    ofFile ⟨environment, fun _ => some config.toJson.render.toUTF8⟩ path = .ok config := by
  have hread : readFile ⟨environment, fun _ => some config.toJson.render.toUTF8⟩ path =
      .ok config.given := by
    simp only [readFile, Json.fromUTF8?_toUTF8, ofText?_render_toJson]
  -- The file gives every setting, so that nothing is left of the defaults.
  rw [ofFile, hread]
  rfl

/-- **Addresses that were written are read back**: as they are, from a scalar of any style in a
settings file, from the environment, and from a configuration that was written out, which is read
back as a whole. So no two addresses are written alike. -/
theorem bindAddress_readBack (address : SocketAddress) :
    SocketAddress.parse? address.render = some address ∧
      (∀ style tag, Settings.address? (.scalar style tag address.render) = some address) ∧
      (∀ environment, (Settings.ofEnvironment
        (("IRIS_BIND", address.render.toUTF8) :: environment)).bindAddress = some address) ∧
      (∀ (config : Config) (environment : Settings.Environment) (path : String),
        let written := { config with bindAddress := address }
        ofFile ⟨environment, fun _ => some written.toJson.render.toUTF8⟩ path = .ok written) ∧
      ∀ other : SocketAddress, other.render = address.render ↔ other = address := by
  have hread := address.parse?_render
  refine ⟨hread, fun style tag => hread, fun environment => ?_, fun config environment path => ?_,
    fun other => ⟨SocketAddress.render_injective, congrArg SocketAddress.render⟩⟩
  · simp only [Settings.ofEnvironment, Settings.Environment.text?, List.lookup_cons_self,
      Option.bind_some, Json.fromUTF8?_toUTF8, hread]
  · exact ofFile_render_toJson { config with bindAddress := address } environment path

end Config

end Switchboard
