import QueryGate.Proofs.Base64Text
import QueryGate.Proofs.JsonValue
import QueryGate.Proofs.QueryFaults
import QueryGate.Proofs.Revalidation

/-! Validated queries travel: what an envelope gives back is the query that was put in, and it is let through again. -/
namespace QueryGate
open Outcome

namespace Wire.Envelope

theorem encodeChars_ne_nil (v : Value) : encodeChars v ≠ [] := by
  have bytes : Utf8.encode (Json.write v) ≠ [] := by
    intro nothing
    have read := Utf8.decode_encode (Json.write v)
    rw [nothing] at read
    exact (Json.write_begins v).ne_nil (Except.ok.inj read).symm
  obtain ⟨n, -, rest, begins⟩ := Base64.encode_begins bytes
  rw [encodeChars, begins]
  exact List.cons_ne_nil _ rest

theorem encode_ok_iff {room : Nat} {v : Value} {text : String} :
    encode room v = .ok text ↔ v.Fits room ∧ text.toList = encodeChars v := by
  rw [← Json.unwritable?_eq_none, encode]
  cases Json.unwritable? room v with
  | none =>
    rw [Except.ok.injEq, ← String.toList_inj, String.toList_ofList]
    exact ⟨fun same => ⟨rfl, same.symm⟩, fun h => h.2.symm⟩
  | some f => exact ⟨nofun, fun h => absurd h.1 nofun⟩

theorem exists_encode_iff {room : Nat} {v : Value} : (∃ text, encode room v = .ok text) ↔ v.Fits room := by
  simp only [encode_ok_iff]
  exact ⟨fun ⟨_, fits, _⟩ => fits, fun fits => ⟨String.ofList (encodeChars v), fits, String.toList_ofList⟩⟩

theorem decodeChars_encodeChars {v : Value} (json : v.IsJson) {room : Nat} (fits : v.Fits room) :
    decodeChars room (encodeChars v) = .ok v := by
  rw [decodeChars, encodeChars, Base64.normalize_encode, Base64.decode_encode]
  refine bind_eq_ok.mpr ⟨_, rfl, ?_⟩
  rw [Utf8.decode_encode]
  refine bind_eq_ok.mpr ⟨_, rfl, ?_⟩
  exact mapError_eq_ok.mpr (Json.read_write json fits)

theorem decode_text (room : Nat) {s : String} (nonempty : s.toList ≠ []) :
    decode room (.text s) = decodeChars room s.toList := by
  rw [decode, String.isEmpty_eq_false_iff.mpr (mt String.toList_eq_nil_iff.mpr nonempty), if_neg Bool.false_ne_true]

/-- There need not be as much room for reading as there was for writing. -/
theorem decode_encode {v : Value} (json : v.IsJson) {writing reading : Nat} {text : String}
    (h : encode writing v = .ok text) (shallow : v.levels ≤ reading) : decode reading (.text text) = .ok v := by
  obtain ⟨fits, chars⟩ := encode_ok_iff.mp h
  rw [decode_text reading (chars ▸ encodeChars_ne_nil v), chars, decodeChars_encodeChars json ⟨shallow, fits.short⟩]

theorem encode_rowsUpTo {n : Int} (long : Numeral.isLong n = true) (room : Nat) :
    encode (room + 1) (rowsUpTo n) = .error .longInteger := by
  have unwritable : Json.unwritable? (room + 1) (rowsUpTo n) = some .longInteger := by
    simp [rowsUpTo, Json.unwritable?, Json.unwritableMember?, Scalar.isShort, long]
  rw [encode, unwritable]

end Wire.Envelope

/-- The operand of a condition, if there is one, stands in what was sent. -/
def Condition.SentIn (raw : Value) (c : Condition) : Prop := c.value = .null ∨ (Value.scalar c.value).Inside raw

theorem Condition.SentIn.mono {c : Condition} {v raw : Value} (inside : v.Inside raw) (h : c.SentIn v) : c.SentIn raw :=
  h.imp_right fun deeper => deeper.trans inside

theorem Value.Inside.eq_of_scalar {v : Value} {s : Scalar} (h : v.Inside (.scalar s)) : v = .scalar s := by
  cases h
  rfl

theorem Condition.SentIn.of_firstOf {c : Condition} {fields : Fields} (names : List String)
    (h : c.SentIn (fields.firstOf names)) : c.SentIn (.object fields) := by
  rcases fields.firstOf_cases names with null | ⟨key, -, member⟩
  · rw [null] at h
    exact .inl (h.elim id fun inside => Value.scalar.inj inside.eq_of_scalar)
  · exact h.mono (.field member (.here _))

theorem validateCondition_sent {o : ValidationOptions} {field operator operand : Value} {c : Condition}
    (h : validateCondition o field operator operand = .ok c) : c.SentIn operand := by
  obtain ⟨name, -, h⟩ := bind_eq_ok.mp h
  obtain ⟨op, -, h⟩ := bind_eq_ok.mp h
  split at h
  · obtain rfl := Except.ok.inj h
    exact .inl rfl
  · obtain ⟨-, h⟩ := unless_eq_ok.mp h
    obtain ⟨s, hs, h⟩ := bind_eq_ok.mp h
    obtain rfl := Except.ok.inj h
    obtain ⟨rfl, -⟩ := validateOperand_ok hs
    exact .inr (.here _)

def EachLeaf (P : Condition → Prop) (ps : List Predicate) : Prop := ∀ p ∈ ps, ∀ c ∈ p.leaves, P c

abbrev SentTrees (raw : Value) (ps : List Predicate) : Prop := EachLeaf (·.SentIn raw) ps

theorem validatePredicate_sent {o : ValidationOptions} {levels : Nat} {raw : Value} {p : Predicate}
    (h : validatePredicate o levels raw = .ok p) : ∀ c ∈ p.leaves, c.SentIn raw := by
  induction levels generalizing raw p with
  | zero => exact absurd h nofun
  | succ levels ih =>
    cases raw with
    | scalar s => exact absurd h nofun
    | list items => exact absurd h nofun
    | object fields =>
      obtain ⟨shape, hshape, read⟩ := validatePredicate_object.mp h
      cases read with
      | condition hc =>
        cases PredicateShape.foundIn_of_ofFields hshape
        exact List.forall_mem_singleton.mpr ((validateCondition_sent hc).of_firstOf _)
      | group _ hraws _ hchildren =>
        obtain ⟨-, names, rfl⟩ := PredicateShape.ofFields_group hshape
        intro c hc
        obtain ⟨child, member, leaf⟩ := Predicate.mem_leavesOf.mp hc
        obtain ⟨raw, inside, valid⟩ := (mapM_ok hchildren).2 child member
        have sent : c.SentIn (Fields.firstOf fields names) := by
          rw [validateChildren_eq hraws]
          exact (ih valid c leaf).mono (.item inside (.here raw))
        exact sent.of_firstOf names

theorem validateClause_sent {o : ValidationOptions} {clause : String} {v : Value} {result : Option (List Predicate)}
    (h : validateClause o clause v = .ok result) : ∀ ps ∈ result, SentTrees v ps := by
  unfold validateClause at h
  rintro ps rfl
  split at h
  · exact absurd h nofun
  · obtain ⟨_, hps, same⟩ := map_eq_ok.mp h
    obtain rfl := Option.some.inj same
    intro p hp
    obtain ⟨raw, member, valid⟩ := (mapM_ok hps).2 p hp
    obtain rfl := List.mem_singleton.mp member
    exact validatePredicate_sent valid
  · obtain ⟨_, hps, same⟩ := map_eq_ok.mp h
    obtain rfl := Option.some.inj same
    intro p hp c hc
    obtain ⟨raw, member, valid⟩ := (mapM_ok hps).2 p hp
    exact (validatePredicate_sent valid c hc).mono (.item member (.here raw))
  · exact absurd h nofun

theorem validateJoins_sent {o : ValidationOptions} {v : Value} {result : Option (List Join)}
    (h : validateJoins o v = .ok result) : ∀ js ∈ result, ∀ j ∈ js, SentTrees v j.on := by
  unfold validateJoins at h
  rintro js rfl
  split at h
  · exact absurd h nofun
  · obtain ⟨_, hjs, same⟩ := map_eq_ok.mp h
    obtain rfl := Option.some.inj same
    intro j hj p hp c hc
    obtain ⟨raw, member, valid⟩ := (mapM_ok hjs).2 j hj
    cases raw with
    | scalar s => exact absurd valid nofun
    | list items => exact absurd valid nofun
    | object fields =>
      have read := validateJoin_object.mp valid
      have sent := validateClause_sent read.on j.on rfl p hp c hc
      exact (sent.of_firstOf _).mono (.item member (.here _))
  · exact absurd h nofun

structure Query.EachLeaf (P : Condition → Prop) (q : Query) : Prop where
  filter : ∀ ps ∈ q.filter, QueryGate.EachLeaf P ps
  joins : ∀ js ∈ q.joins, ∀ j ∈ js, QueryGate.EachLeaf P j.on
  having : ∀ ps ∈ q.having, QueryGate.EachLeaf P ps

abbrev Query.SentIn (raw : Value) (q : Query) : Prop := q.EachLeaf (·.SentIn raw)

theorem Query.ReadFrom.sent {o : ValidationOptions} {fields : Fields} {q : Query} (h : q.ReadFrom o fields) :
    q.SentIn (.object fields) where
  filter ps given p hp c hc := (validateClause_sent h.filter ps given p hp c hc).of_firstOf _
  joins js given j hj p hp c hc := (validateJoins_sent h.joins js given j hj p hp c hc).of_firstOf _
  having ps given p hp c hc := (validateClause_sent h.having ps given p hp c hc).of_firstOf _

theorem validate_sent {o : ValidationOptions} {raw : Value} {q : Query} (h : validate o raw = .ok q) : q.SentIn raw := by
  cases raw with
  | scalar s =>
    cases s with
    | null =>
      obtain rfl := Except.ok.inj h
      exact ⟨nofun, nofun, nofun⟩
    | _ => exact absurd h nofun
  | list items => exact absurd h nofun
  | object fields => exact (validate_object.mp h).sent

theorem Value.IsJson.inside {v w : Value} (json : w.IsJson) (inside : v.Inside w) : v.IsJson := by
  induction inside with
  | here => exact json
  | item member _ ih =>
    cases json with
    | list each => exact ih (each _ member)
  | field member _ ih =>
    cases json with
    | object _ each => exact ih (each _ member)

theorem Condition.SentIn.isJson {c : Condition} {raw : Value} (json : raw.IsJson) (sent : c.SentIn raw) :
    c.value.isJson = true := by
  rcases sent with none | inside
  · rw [none]
    rfl
  · cases json.inside inside with
    | scalar h => exact h

structure Value.Builds (P : Value → Prop) : Prop where
  text : ∀ s, P (.text s)
  bool : ∀ b, P (.bool b)
  list : ∀ items : List Value, (∀ v ∈ items, P v) → P (.list items)
  object : ∀ fields : Fields, fields.keys.Nodup → (∀ f ∈ fields, P f.2) → P (.object fields)

theorem Value.isJson_builds : Value.Builds Value.IsJson where
  text _ := .scalar rfl
  bool _ := .scalar rfl
  list _ := .list
  object _ := .object

theorem Value.isShort_builds : Value.Builds (·.isShort = true) where
  text _ := isShort_scalar _
  bool _ := isShort_scalar _
  list _ := isShort_list.mpr
  object _ _ := isShort_object.mpr

theorem forall_mem_optionalField {P : Value → Prop} (name : String) {v : Option Value} (h : ∀ w ∈ v, P w) :
    ∀ f ∈ optionalField name v, P f.2 := by
  cases v with
  | none => exact List.forall_mem_nil _
  | some w => exact List.forall_mem_singleton.mpr (h w rfl)

theorem forall_mem_optionalMap {α : Type} {P : Value → Prop} (name : String) {wire : α → Value} {clause : Option α}
    (h : ∀ a ∈ clause, P (wire a)) : ∀ f ∈ optionalField name (clause.map wire), P f.2 := by
  refine forall_mem_optionalField name fun w given => ?_
  obtain ⟨a, present, rfl⟩ := Option.map_eq_some_iff.mp given
  exact h a present

section
variable {P : Value → Prop} (builds : Value.Builds P)
include builds

theorem builds_textList (names : List String) : P (textList names) :=
  builds.list _ (List.forall_mem_map.mpr fun name _ => builds.text name)

theorem Condition.toWire_builds {c : Condition} (h : P (.scalar c.value)) : P c.toWire := by
  have operand : ∀ w ∈ if c.value = .null then none else some (.scalar c.value), P w := by
    intro w given
    split at given
    · exact absurd given nofun
    · exact Option.some.inj given ▸ h
  refine builds.object _ ((c.keys_toWire rfl).nodup (by decide)) ?_
  simp only [List.forall_mem_append, List.forall_mem_cons]
  exact ⟨⟨builds.text _, builds.text _, List.forall_mem_nil _⟩, forall_mem_optionalField "value" operand⟩

theorem Predicate.toWire_builds {p : Predicate} (h : ∀ c ∈ p.leaves, P (.scalar c.value)) : P p.toWire := by
  induction p with
  | condition c => exact c.toWire_builds builds (h c (List.mem_singleton_self c))
  | group operator children negate ih =>
    have below : P (.list (toWireAll children)) := by
      rw [toWireAll_eq_map]
      refine builds.list _ (List.forall_mem_map.mpr fun child member => ih child member fun c hc => ?_)
      exact h c (mem_leavesOf.mpr ⟨child, member, hc⟩)
    refine builds.object _ ((keys_toWire operator children negate rfl).nodup (by decide)) ?_
    simp only [List.forall_mem_cons]
    exact ⟨builds.text _, below, builds.bool _, List.forall_mem_nil _⟩

theorem EachLeaf.toWireAll_builds {ps : List Predicate} (h : EachLeaf (P ∘ .scalar ∘ Condition.value) ps) :
    P (.list (Predicate.toWireAll ps)) := by
  rw [Predicate.toWireAll_eq_map]
  exact builds.list _ (List.forall_mem_map.mpr fun p hp => p.toWire_builds builds (h p hp))

theorem Join.toWire_builds {j : Join} (h : EachLeaf (P ∘ .scalar ∘ Condition.value) j.on) : P j.toWire := by
  refine builds.object _ ((j.keys_toWire rfl).nodup (by decide)) ?_
  simp only [List.forall_mem_append, List.forall_mem_cons]
  exact ⟨⟨⟨builds.text _, builds.text _, List.forall_mem_nil _⟩,
    forall_mem_optionalMap "alias" fun label _ => builds.text label⟩, h.toWireAll_builds builds, List.forall_mem_nil _⟩

theorem Order.toWire_builds (order : Order) : P order.toWire := by
  refine builds.object _ ((order.keys_toWire rfl).nodup (by decide)) ?_
  simp only [List.forall_mem_cons]
  exact ⟨builds.text _, builds.text _, List.forall_mem_nil _⟩

theorem Query.toWire_builds {q : Query} (h : q.EachLeaf (P ∘ .scalar ∘ Condition.value))
    (limit : ∀ n ∈ q.limit, P (.int n)) (offset : ∀ n ∈ q.offset, P (.int n)) : P q.toWire := by
  refine builds.object _ ((q.keys_toWire rfl).nodup (by decide)) ?_
  simp only [List.forall_mem_append]
  refine ⟨⟨⟨⟨⟨⟨⟨?select, ?filter⟩, ?joins⟩, ?groupBy⟩, ?having⟩, ?orderBy⟩, ?limit⟩, ?offset⟩
  case select => exact forall_mem_optionalMap _ fun names _ => builds_textList builds names
  case filter => exact forall_mem_optionalMap _ fun ps given => (h.filter ps given).toWireAll_builds builds
  case joins =>
    exact forall_mem_optionalMap _ fun js given =>
      builds.list _ (List.forall_mem_map.mpr fun j hj => j.toWire_builds builds (h.joins js given j hj))
  case groupBy => exact forall_mem_optionalMap _ fun names _ => builds_textList builds names
  case having => exact forall_mem_optionalMap _ fun ps given => (h.having ps given).toWireAll_builds builds
  case orderBy =>
    exact forall_mem_optionalMap _ fun orders _ =>
      builds.list _ (List.forall_mem_map.mpr fun order _ => order.toWire_builds builds)
  case limit => exact forall_mem_optionalMap _ limit
  case offset => exact forall_mem_optionalMap _ offset

end

theorem EachLeaf.mono {P Q : Condition → Prop} {ps : List Predicate} (h : EachLeaf P ps) (weaker : ∀ c, P c → Q c) :
    EachLeaf Q ps := fun p hp c hc => weaker c (h p hp c hc)

theorem Query.EachLeaf.mono {P Q : Condition → Prop} {q : Query} (h : q.EachLeaf P) (weaker : ∀ c, P c → Q c) :
    q.EachLeaf Q where
  filter ps given := (h.filter ps given).mono weaker
  joins js given j hj := (h.joins js given j hj).mono weaker
  having ps given := (h.having ps given).mono weaker

theorem Query.SentIn.toWire_isJson {raw : Value} {q : Query} (json : raw.IsJson) (sent : q.SentIn raw) :
    q.toWire.IsJson := by
  refine q.toWire_builds Value.isJson_builds ?_ (fun n _ => .scalar rfl) (fun n _ => .scalar rfl)
  exact sent.mono fun c hc => .scalar (hc.isJson json)

theorem AllowedTrees.eachLeaf {o : ValidationOptions} {ps : List Predicate} (h : AllowedTrees o ps) :
    EachLeaf (·.Allowed o) ps :=
  fun p hp c hc => h.leaves c (Predicate.mem_leavesOf.mpr ⟨p, hp, hc⟩)

theorem Query.Allowed.eachLeaf {o : ValidationOptions} {q : Query} (h : q.Allowed o) : q.EachLeaf (·.Allowed o) where
  filter ps given := (h.filter ps given).eachLeaf
  joins js given j hj := (h.joins js given j hj).on.eachLeaf
  having ps given := (h.having ps given).eachLeaf

theorem Condition.Allowed.isShort {o : ValidationOptions} {c : Condition} (h : c.Allowed o) :
    (Value.scalar c.value).isShort = true := by
  rw [Value.isShort_scalar]
  cases unary : c.operator.isUnary with
  | true => rw [h.unary unary]; rfl
  | false => exact (h.operand unary).2.1

/-- The counts of a query have texts. -/
def Query.CountsShort (q : Query) : Prop := ∀ n ∈ q.limit.toList ++ q.offset.toList, Numeral.isLong n = false

theorem isShort_int {n : Int} : (Value.int n).isShort = true ↔ Numeral.isLong n = false := by
  rw [Value.isShort_scalar, Scalar.isShort, Bool.not_eq_true']

theorem Query.Allowed.toWire_isShort {o : ValidationOptions} {q : Query} (h : q.Allowed o) :
    q.toWire.isShort = true ↔ q.CountsShort := by
  constructor
  · intro short
    have field := Value.isShort_object.mp short
    intro n count
    rw [← isShort_int]
    rcases List.mem_append.mp count with limit | offset
    · exact field ("limit", .int n) (by simp [optionalField, Option.mem_toList.mp limit])
    · exact field ("offset", .int n) (by simp [optionalField, Option.mem_toList.mp offset])
  · intro short
    refine q.toWire_builds Value.isShort_builds (h.eachLeaf.mono fun c hc => hc.isShort) ?_ ?_
    · exact fun n limit => isShort_int.mpr (short n (List.mem_append_left _ (Option.mem_toList.mpr limit)))
    · exact fun n offset => isShort_int.mpr (short n (List.mem_append_right _ (Option.mem_toList.mpr offset)))

theorem Value.mapScalarsItems_eq_map (f : Scalar → Scalar) (items : List Value) :
    mapScalarsItems f items = items.map (mapScalars f) := by
  induction items with
  | nil => rfl
  | cons v items ih => rw [mapScalarsItems, ih, List.map_cons]

theorem Value.mapScalarsFields_eq_map (f : Scalar → Scalar) (fields : Fields) :
    mapScalarsFields f fields = fields.map fun field => (field.1, mapScalars f field.2) := by
  induction fields with
  | nil => rfl
  | cons field fields ih => rw [mapScalarsFields, ih, List.map_cons]

theorem Value.IsJson.mapScalars_toJson {v : Value} (json : v.IsJson) : v.mapScalars Scalar.toJson = v := by
  induction json with
  | @scalar s h =>
    cases s with
    | date d => exact absurd h Bool.false_ne_true
    | moment m => exact absurd h Bool.false_ne_true
    | _ => rfl
  | @list items _ ih => rw [mapScalars, mapScalarsItems_eq_map, List.map_congr_left ih, List.map_id']
  | @object fields _ _ ih =>
    have same : ∀ field ∈ fields, (field.1, field.2.mapScalars Scalar.toJson) = field := fun field member =>
      Prod.ext rfl (ih field member)
    rw [mapScalars, mapScalarsFields_eq_map, List.map_congr_left same, List.map_id']

/-- A validated query has an envelope unless a count has no text or its JSON form is nested deeper than there is room
for. Where there is room to read it, the envelope gives the form back, which is let through again as the same query. -/
theorem validate_decode_encode {o : ValidationOptions} {raw : Value} {q : Query} (json : raw.IsJson)
    (h : validate o raw = .ok q) (writing reading : Nat) :
    ((∃ text, Wire.Envelope.encode writing q.toJson = .ok text) ↔ q.CountsShort ∧ q.toJson.levels ≤ writing) ∧
      ∀ text, Wire.Envelope.encode writing q.toJson = .ok text → q.toJson.levels ≤ reading →
        Wire.Envelope.decode reading (.text text) = .ok q.toJson ∧ validate o q.toJson = .ok q := by
  have wire : q.toWire.IsJson := (validate_sent h).toWire_isJson json
  have same : q.toJson = q.toWire := wire.mapScalars_toJson
  obtain ⟨fields, read⟩ := exists_readFrom h
  rw [same, Wire.Envelope.exists_encode_iff, Value.fits_iff, read.allowed.toWire_isShort]
  exact ⟨Iff.rfl, fun text written shallow => ⟨Wire.Envelope.decode_encode wire written shallow, read.allowed.validate⟩⟩

def cakeOrders : Value := .object
  [("where", .object [("or", .list
      [.object [("field", .text "cake"), ("op", .text "="), ("value", .text "crème brûlée 🍮")],
        .object [("operator", .text "and"), ("conditions", .list
          [.object [("field", .text "weight"), ("op", .text ">="), ("value", .float (.ofRatio false 1 10))],
            .object [("field", .text "crumbs"), ("op", .text "<"), ("value", .float (.ofRatio true (10 ^ 22) 1))],
            .object [("field", .text "eaten"), ("op", .text "is null")]])]]), ("negate", .bool true)]),
    ("order_by", .object [("field", .text "cake")]), ("limit", .float (.ofRatio false 20 1))]

theorem validate_decode_encode_cakeOrders : cakeOrders.IsJson ∧ ∃ q text, validate .strict cakeOrders = .ok q ∧
    Wire.Envelope.encode 10 q.toJson = .ok text ∧
    (Wire.Envelope.decode 7 (.text text) = .ok q.toJson ∧ validate .strict q.toJson = .ok q) ∧
    (Predicate.leavesOf (q.filter.getD [])).map (·.value) =
      [.text "crème brûlée 🍮", .float (.ofRatio false 1 10), .float (.ofRatio true (10 ^ 22) 1), .null] := by
  have json : cakeOrders.IsJson := by simp [cakeOrders, Scalar.isJson]
  have accepted : ((validate .strict cakeOrders).toOption.map fun q =>
      (q.limit, q.offset, q.toJson.levels, (Predicate.leavesOf (q.filter.getD [])).map (·.value))) =
        some (some 20, none, 7,
          [.text "crème brûlée 🍮", .float (.ofRatio false 1 10), .float (.ofRatio true (10 ^ 22) 1), .null]) := by
    decide +kernel
  obtain ⟨q, hq, seen⟩ := toOption_map_eq_some.mp accepted
  simp only [Prod.mk.injEq] at seen
  obtain ⟨limit, offset, levels, operands⟩ := seen
  obtain ⟨written, travels⟩ := validate_decode_encode json hq 10 7
  have short : q.CountsShort := by
    rw [Query.CountsShort, limit, offset]
    decide
  obtain ⟨text, written⟩ := written.mpr ⟨short, by omega⟩
  exact ⟨json, q, text, hq, written, travels text written (by omega), operands⟩

theorem rowsUpTo_unwritable : ∃ q, validate {} (rowsUpTo (10 ^ Numeral.maxDigits)) = .ok q ∧
    Wire.Envelope.encode 1000 q.toJson = .error .longInteger := by
  exact ⟨_, validate_rowsUpTo {} (Int.pow_pos (by decide)), Wire.Envelope.encode_rowsUpTo Numeral.isLong_pow 999⟩

end QueryGate
