import QueryGate.Config
import QueryGate.Proofs.AllowedQuery

/-! What holds of every configuration that was read: its schema is a table's name, and its limits are positive. -/
namespace QueryGate
open Outcome Name

/-- What a configuration's fields are held to: the schema is a table's name and limits are positive. -/
structure Config.Valid (config : Config) : Prop where
  schema : ∀ s ∈ config.schema, Name.isTable s.toList = true
  whenAbsent : ∀ n ∈ config.rowLimit.whenAbsent, 0 < n
  most : ∀ n ∈ config.rowLimit.most, 0 < n

namespace Form

theorem optional_positive {v : Value} {result : Option Int} (h : optional positive v = .ok result) :
    ∀ n ∈ result, 0 < n := by
  unfold optional at h
  rintro n rfl
  split at h
  · exact absurd h nofun
  · obtain ⟨m, hm, same⟩ := map_eq_ok.mp h
    obtain ⟨i, -, hm⟩ := bind_eq_ok.mp hm
    obtain ⟨enough, hm⟩ := when_eq_ok.mp hm
    obtain rfl := Except.ok.inj hm
    exact Option.some.inj same ▸ enough

theorem withDefault_ok {α : Type} {names : List String} {default a : α} {item : Value → Except Fault α}
    {fields : Fields} (h : withDefault names default item fields = .ok a) :
    a = default ∨ item (fields.firstOf names) = .ok a := by
  unfold withDefault at h
  split at h
  next name v found =>
    rw [Fields.firstOf, found]
    exact .inr (mapError_eq_ok.mp h)
  next => exact .inl (Except.ok.inj h).symm

theorem withDefault_positive {names : List String} {fields : Fields} {result : Option Int}
    (h : withDefault names none (optional positive) fields = .ok result) : ∀ n ∈ result, 0 < n := by
  obtain rfl | h := withDefault_ok h
  · exact fun n hn => absurd hn nofun
  · exact optional_positive h

end Form

namespace Config

theorem schema_isTable {fields : Fields} {schema : Option String} (checked : checkSchema fields = .ok ())
    (h : Form.withDefault schemaNames none (Form.optional Form.text) fields = .ok schema) :
    ∀ s ∈ schema, isTable s.toList = true := by
  rintro s rfl
  obtain none | h := Form.withDefault_ok h
  · exact absurd none nofun
  · unfold checkSchema at checked
    cases given : fields.firstOf schemaNames with
    | list items =>
      rw [given] at h
      exact absurd h nofun
    | object entries =>
      rw [given] at h
      exact absurd h nofun
    | scalar v =>
      rw [given] at h checked
      -- only a text is read as a schema, and a text has been checked
      cases v with
      | text t =>
        obtain rfl : t = s := Option.some.inj (Except.ok.inj h)
        obtain ⟨_, table, -⟩ := map_eq_ok.mp (mapError_eq_ok.mp checked)
        obtain ⟨same, isTable⟩ := validateTable_ok table
        simp only [Value.scalar.injEq, Scalar.text.injEq] at same
        exact same ▸ isTable
      | _ => exact absurd h nofun

/-- Every configuration that was read from fields is valid. -/
theorem ofFields_valid {fields : Fields} {config : Config} (h : ofFields fields = .ok config) : config.Valid := by
  obtain ⟨validation, -, h⟩ := bind_eq_ok.mp h
  obtain ⟨_, checked, h⟩ := bind_eq_ok.mp h
  obtain ⟨dialect, -, h⟩ := bind_eq_ok.mp (mapError_eq_ok.mp h)
  obtain ⟨schema, hschema, h⟩ := bind_eq_ok.mp h
  obtain ⟨whenAbsent, hwhenAbsent, h⟩ := bind_eq_ok.mp h
  obtain ⟨most, hmost, h⟩ := bind_eq_ok.mp h
  obtain ⟨verify, -, h⟩ := bind_eq_ok.mp h
  obtain rfl := Except.ok.inj h
  exact ⟨schema_isTable checked hschema, Form.withDefault_positive hwhenAbsent, Form.withDefault_positive hmost⟩

end Config

end QueryGate
