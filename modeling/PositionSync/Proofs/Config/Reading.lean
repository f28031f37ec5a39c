import PositionSync.Config.Reading
import PositionSync.Proofs.Yaml.Records

/-!
# Configurations are read back

The JSON text of a configuration is a YAML document of the same configuration, whatever its texts hold
apart from characters that are hidden from YAML. Whatever is read has been checked.
-/

namespace PositionSync.WorkerConfig

/-- Whether no text has hidden characters. -/
structure IsVisible (config : WorkerConfig) : Prop where
  workerId : ∀ char ∈ config.workerId.toList, Yaml.isHidden char = false
  storeDir : ∀ char ∈ config.storeDir.toList, Yaml.isHidden char = false
  positionTopic : ∀ char ∈ config.positionTopic.toList, Yaml.isHidden char = false

section Members

open Yaml

def intervalAtom : Option UInt64 → Atom
  | some interval => .number interval.toNat
  | none => .null

/-- The members of the object of a configuration. -/
def atoms (config : WorkerConfig) : List (String × Atom) := [
  ("worker_id", .text config.workerId),
  ("store_dir", .text config.storeDir),
  ("position_topic", .text config.positionTopic),
  ("sync_interval_ms", intervalAtom config.syncIntervalMs),
  ("persist_interval_ms", intervalAtom config.persistIntervalMs)]

theorem value_intervalAtom (interval : Option UInt64) :
    (intervalAtom interval).value = intervalValue interval := by
  cases interval <;> rfl

theorem isVisible_intervalAtom (interval : Option UInt64) : (intervalAtom interval).IsVisible := by
  cases interval <;> trivial

theorem json_eq (config : WorkerConfig) :
    config.json = String.ofList ('\x7b' :: memberChars config.atoms) := by
  have members : config.atoms.map (fun member => (member.1, member.2.value)) = [
      ("worker_id", .text config.workerId),
      ("store_dir", .text config.storeDir),
      ("position_topic", .text config.positionTopic),
      ("sync_interval_ms", intervalValue config.syncIntervalMs),
      ("persist_interval_ms", intervalValue config.persistIntervalMs)] := by
    simp only [atoms, List.map_cons, List.map_nil, value_intervalAtom]
    rfl
  rw [memberChars, members]
  rfl

theorem isReadable_atoms {config : WorkerConfig} (visible : config.IsVisible) :
    ∀ member ∈ config.atoms, IsReadable member := by
  have name (name : String) (plain : name.toList.any isHidden = false)
      (short : octetCount (Json.string name) ≤ 1024) {atom : Atom} (isVisible : atom.IsVisible) :
      IsReadable (name, atom) := ⟨visible_of_any plain, short, isVisible⟩
  simp only [atoms, List.forall_mem_cons]
  refine ⟨name _ (by decide) (by decide) visible.workerId,
    name _ (by decide) (by decide) visible.storeDir,
    name _ (by decide) (by decide) visible.positionTopic,
    name _ (by decide) (by decide) (isVisible_intervalAtom _),
    name _ (by decide) (by decide) (isVisible_intervalAtom _), by simp⟩

theorem interval_atom (place : Option String) (interval : Option UInt64) :
    Draft.interval place (.scalar (intervalAtom interval).scalar) = .ok interval := by
  cases interval with
  | none => rfl
  | some interval =>
      have fits : interval.toNat ≤ 0xFFFFFFFFFFFFFFFF := Nat.le_of_lt_succ interval.toNat_lt
      rw [Draft.interval, intervalAtom, optionalUnsigned64_number place fits]
      simp [Except.map]

end Members

/-- The fields of an object of a configuration, read one after the other. -/
theorem read_atoms (config : WorkerConfig) :
    config.atoms.foldlM (Yaml.readMember Draft.fields) {} =
      .ok ⟨some config.workerId, some config.storeDir, some config.positionTopic,
        some config.syncIntervalMs, some config.persistIntervalMs⟩ := by
  have text (place : Option String) (expected value : String) :
      Yaml.atMember place (Yaml.Node.text expected (.scalar (Yaml.Atom.text value).scalar)) =
        .ok value := rfl
  simp [atoms, Yaml.readMember, Draft.fields, Draft.isSet, Draft.read, interval_atom, text, bind,
    Except.bind, pure, Except.pure]

theorem parse_json {config : WorkerConfig} (valid : config.validate = .ok ())
    (visible : config.IsVisible) : parse config.json = .ok config := by
  have decoded : Yaml.decode Draft.fields {} "struct WorkerConfig" Draft.finish config.json =
      .ok config := by
    rw [json_eq, Yaml.decode_object (isReadable_atoms visible), read_atoms]
    rfl
  unfold parse
  rw [decoded]
  simp only [validated, valid]
  rfl

theorem validate_of_parse {text : String} {config : WorkerConfig}
    (parsed : parse text = .ok config) : config.validate = .ok () := by
  unfold parse at parsed
  split at parsed
  · cases parsed
  · next read _ =>
    cases valid : read.validate with
    | error fault => simp [validated, valid, bind, Except.bind] at parsed
    | ok _ =>
        simp only [validated, valid] at parsed
        obtain rfl : read = config := Except.ok.inj parsed
        exact valid

theorem checkInterval_eq_ok_iff (field : String) (interval : Option UInt64) :
    checkInterval field interval = .ok () ↔ interval ≠ some 0 := by
  unfold checkInterval
  split <;> simp [*]

theorem validate_eq_ok_iff (config : WorkerConfig) :
    config.validate = .ok () ↔ Text.isBlank config.workerId = false ∧
      Text.isBlank config.positionTopic = false ∧ config.syncIntervalMs ≠ some 0 ∧
      config.persistIntervalMs ≠ some 0 := by
  rw [← checkInterval_eq_ok_iff "sync_interval_ms", ← checkInterval_eq_ok_iff "persist_interval_ms",
    validate]
  cases Text.isBlank config.workerId with
  | true => simp [throw, throwThe, MonadExceptOf.throw, bind, Except.bind]
  | false =>
      cases Text.isBlank config.positionTopic with
      | true => simp [throw, throwThe, MonadExceptOf.throw, bind, Except.bind]
      | false =>
          cases checkInterval "sync_interval_ms" config.syncIntervalMs <;>
            simp [bind, Except.bind]

/-- A configuration that validates is read back from its JSON text, with every interval as it was, unless
a text holds hidden characters. From any text only configurations that validate are read: the worker's
name and the topic are not blank, and no interval is zero. -/
theorem json_reads_back_and_readings_validate :
    (∀ config : WorkerConfig, config.validate = .ok () → config.IsVisible →
      parse config.json = .ok config) ∧
    ∀ (text : String) (config : WorkerConfig), parse text = .ok config →
      config.validate = .ok () ∧ Text.isBlank config.workerId = false ∧
        Text.isBlank config.positionTopic = false ∧ config.syncIntervalMs ≠ some 0 ∧
        config.persistIntervalMs ≠ some 0 := by
  refine ⟨fun config valid visible => parse_json valid visible, fun text config parsed => ?_⟩
  have valid := validate_of_parse parsed
  exact ⟨valid, (validate_eq_ok_iff config).1 valid⟩

/-- A configuration whose texts are full of what has a meaning of its own in YAML. -/
def cluttered : WorkerConfig where
  workerId := "- \"w\": \x7b[1, 2]\x7d # \\ 'x' &a *a !t |\n\t---\n\x01"
  storeDir := "? ~/Ablage: ä @%,"
  positionTopic := "null"
  syncIntervalMs := some 18446744073709551615
  persistIntervalMs := none

theorem json_reads_back_cluttered :
    cluttered.validate = .ok () ∧ cluttered.IsVisible ∧ parse cluttered.json = .ok cluttered ∧
      Text.isBlank cluttered.workerId = false := by
  have valid : cluttered.validate = .ok () := by
    rw [validate_eq_ok_iff]
    decide
  have visible : cluttered.IsVisible := ⟨Yaml.visible_of_any (by decide),
    Yaml.visible_of_any (by decide), Yaml.visible_of_any (by decide)⟩
  have parsed := json_reads_back_and_readings_validate.1 cluttered valid visible
  exact ⟨valid, visible, parsed, (json_reads_back_and_readings_validate.2 _ _ parsed).2.1⟩

end PositionSync.WorkerConfig
