import QueryGate.Http.Service
import QueryGate.Proofs.CompiledOperation
import QueryGate.Proofs.Transport

/-! A read is the same read in each of the four ways in which it can be sent: the gate is asked the same by all of
them, and so they have the same outcome. -/
namespace QueryGate
open Outcome

theorem Gate.toSql_path (config : Config) (request : Request) {path : String}
    (same : Target.ofPath path = Target.ofPath request.path) :
    toSql config { request with path := path } = toSql config request := by
  unfold toSql parse Request.operation
  simp only [same]

namespace Http

/-- What the two applications are sent: an exchange for the REST endpoint, the parts of a request for the service that
answers with statements. -/
inductive Message where
  | exchange (endpoint : Endpoint) (sent : Exchange)
  | payload (service : Service) (sent : Request)

namespace Message

def config : Message → Config
  | exchange endpoint _ => endpoint.config
  | payload service _ => service.config

def request : Message → Except Failure Request
  | exchange endpoint sent => endpoint.request sent
  | payload service sent => service.request sent

def answer : Message → Except Failure Answer ⊕ Outcome
  | exchange endpoint sent => .inl (endpoint.answer sent)
  | payload service sent => .inr (service.answer sent)

/-- What is answered, given what has become of the request. -/
def report : Message → Except Failure Fragment → Except Failure Answer ⊕ Outcome
  | exchange endpoint _, .ok statement => .inl (.ok ⟨200, endpoint.execute statement⟩)
  | exchange _ _, .error f => .inl (Endpoint.failureAnswer f)
  | payload _ _, .ok statement => .inr { success := true, sql := statement.sql, params := statement.params }
  | payload _ _, .error f => .inr (Service.failed f)

theorem answer_eq (m : Message) : m.answer = m.report (m.request >>= Gate.toSql m.config) := by
  cases m with
  | exchange endpoint sent =>
    show Sum.inl (endpoint.answer sent) = report _ (endpoint.request sent >>= Gate.toSql endpoint.config)
    unfold Endpoint.answer
    cases endpoint.request sent >>= Gate.toSql endpoint.config <;> rfl
  | payload service sent =>
    show Sum.inr (service.answer sent) = report _ (service.request sent >>= Gate.toSql service.config)
    unfold Service.answer
    cases service.request sent >>= Gate.toSql service.config <;> rfl

end Message

def IsPlace (path place : String) : Prop := place = path ∨ place = "/" ++ path

theorem IsPlace.ofPath {path place : String} (h : IsPlace path place) : Target.ofPath place = Target.ofPath path := by
  rcases h with rfl | rfl
  · rfl
  · exact Target.ofPath_slash path

def readPayload (query : Value) : Value := .object [("action", .text "get"), ("query", query)]

def payloadBytes (query : Value) : List UInt8 := Wire.Utf8.encode (Json.write (readPayload query))

structure NamesRead (path : String) (sent : Request) : Prop where
  method : sent.method = "GET"
  place : IsPlace path sent.path
  body : sent.body = .null

/-- The four ways of sending a read: in the parameter `q`, in the body of an exchange that may have a parameter of
its own, and as the query of a request, as it is or in its envelope. Whoever opens an envelope has room for the query. -/
inductive Sends (path : String) (query : Value) : Message → Prop
  | parameter {endpoint : Endpoint} {sent : Exchange} {room : Nat} {text : String} (method : sent.method = "GET")
      (place : IsPlace path sent.path) (written : Wire.Envelope.encode room query = .ok text) (q : sent.q = some text)
      (shallow : query.levels ≤ endpoint.room) : Sends path query (.exchange endpoint sent)
  | body {endpoint : Endpoint} {sent : Exchange} (enabled : endpoint.jsonPayloads = true)
      (method : sent.method = "POST") (place : IsPlace path sent.path)
      (q : ∀ text ∈ sent.q, ∃ v, Wire.Envelope.decode endpoint.room (.text text) = .ok v)
      (body : Endpoint.readBody endpoint.room sent.body = .ok (readPayload query)) :
    Sends path query (.exchange endpoint sent)
  | field {service : Service} {sent : Request} (read : NamesRead path sent) (given : sent.query = query) :
    Sends path query (.payload service sent)
  | envelope {service : Service} {sent : Request} {room : Nat} {text : String} (read : NamesRead path sent)
      (written : Wire.Envelope.encode room query = .ok text) (given : sent.query = .text text)
      (shallow : query.levels ≤ service.room) : Sends path query (.payload service sent)

/-- A message comes to its gate as a read without a body, with the table and the row of its path, and has the outcome
of that read. -/
structure Reads (m : Message) (path : String) (query : Value) (request : Request) : Prop where
  asked : m.request = .ok request
  method : request.method = "GET"
  body : request.body = .null
  sent : request.query = query
  target : Target.ofPath request.path = Target.ofPath path
  outcome : Gate.toSql m.config request = Gate.toSql m.config { method := "GET", path := path, query := query }
  answer : m.answer = m.report (Gate.toSql m.config { method := "GET", path := path, query := query })

theorem Message.reads {m : Message} {path place : String} {query : Value} (same : IsPlace path place)
    (asked : m.request = .ok { method := "GET", path := place, query := query }) :
    ∃ request, Reads m path query request := by
  have outcome := Gate.toSql_path m.config { method := "GET", path := path, query := query } same.ofPath
  have answer := m.answer_eq
  rw [asked] at answer
  exact ⟨_, asked, rfl, rfl, rfl, same.ofPath, outcome, answer.trans (congrArg m.report outcome)⟩

namespace Endpoint

theorem request_parameter {endpoint : Endpoint} {sent : Exchange} {query : Value} (method : sent.method = "GET")
    (given : readQuery endpoint.room sent.q = .ok query) :
    endpoint.request sent = .ok { method := "GET", path := sent.path, query := query } := by
  have nothing : endpoint.body sent = .ok .null := if_pos method
  have none : ¬(endpoint.jsonPayloads = true ∧ sent.method = "POST") := by
    rw [method]
    exact fun h => absurd h.2 (by decide)
  refine bind_eq_ok.mpr ⟨query, given, bind_eq_ok.mpr ⟨.null, nothing, ?_⟩⟩
  rw [requestOf, if_neg none, method]
  rfl

theorem request_body {endpoint : Endpoint} {sent : Exchange} {query : Value} (enabled : endpoint.jsonPayloads = true)
    (method : sent.method = "POST")
    (q : ∀ text ∈ sent.q, ∃ v, Wire.Envelope.decode endpoint.room (.text text) = .ok v)
    (body : readBody endpoint.room sent.body = .ok (readPayload query)) :
    endpoint.request sent = .ok { method := "GET", path := sent.path, query := query } := by
  obtain ⟨other, hother⟩ : ∃ other, readQuery endpoint.room sent.q = .ok other := by
    unfold readQuery
    split
    next => exact ⟨_, rfl⟩
    next text given =>
      obtain ⟨v, read⟩ := q text given
      exact ⟨v, mapError_eq_ok.mpr read⟩
  have written : ¬sent.method = "GET" := by
    rw [method]
    decide
  have payload : endpoint.body sent = .ok (readPayload query) := (if_neg written).trans body
  refine bind_eq_ok.mpr ⟨other, hother, bind_eq_ok.mpr ⟨_, payload, ?_⟩⟩
  rw [requestOf, if_pos ⟨enabled, method⟩]
  rfl

theorem readPayload_fits {query : Value} {room : Nat} :
    (readPayload query).Fits room ↔ query.isShort = true ∧ query.levels + 1 ≤ room := by
  have parts {inner : Nat} : (readPayload query).Fits (inner + 1) ↔ query.Fits inner := by
    have action : (Value.text "get").Fits inner := Value.fits_scalar.mpr rfl
    rw [readPayload, Value.fits_object, List.forall_mem_cons, List.forall_mem_singleton]
    exact and_iff_right action
  cases room with
  | zero => exact iff_of_false (Value.not_fits_object _) fun h => absurd h.2 (Nat.not_succ_le_zero _)
  | succ inner =>
    rw [parts, Value.fits_iff, Nat.add_le_add_iff_right]

theorem readBody_payloadBytes {query : Value} (json : query.IsJson) (room : Nat) :
    readBody room (payloadBytes query) = .ok (readPayload query) ↔ query.isShort = true ∧ query.levels + 1 ≤ room := by
  rw [← readPayload_fits]
  refine ⟨readBody_fits, fun fits => ?_⟩
  have payload : (readPayload query).IsJson :=
    .object (by simp [Fields.keys]) (by simpa [Scalar.isJson] using json)
  -- neither a byte order mark nor a zero byte stands at the front
  obtain ⟨rest, bytes⟩ : ∃ rest, payloadBytes query = 0x7B :: 0x22 :: 0x61 :: 0x63 :: rest := ⟨_, rfl⟩
  have decoded : Wire.decodeBody (payloadBytes query) = .ok (Json.write (readPayload query)) := by
    have text := Wire.Utf8.decodeFrom_encode true 0 (Json.write (readPayload query))
    rw [← payloadBytes, bytes] at text
    rw [bytes]
    exact text
  have some : (payloadBytes query).isEmpty = false := by
    rw [bytes]
    rfl
  rw [readBody, some, decoded, if_neg Bool.false_ne_true]
  dsimp only
  rw [Json.readAll_write payload fits]

end Endpoint

theorem Service.request_read {service : Service} {sent : Request} {path : String} {query : Value}
    (read : NamesRead path sent) (given : readQuery service.room sent.query = .ok query) :
    service.request sent = .ok { method := "GET", path := sent.path, query := query } := by
  refine bind_eq_ok.mpr ⟨query, given, ?_⟩
  rw [read.method, read.body]
  rfl

/-- A read can be sent by text if its integers have texts and there is room for its levels, of which a payload has one
more. It has the same outcome in whichever way it was sent. -/
theorem reads_of_sends {path : String} {fields : Fields} (json : (Value.object fields).IsJson) :
    (∀ room, (∃ text, Wire.Envelope.encode room (.object fields) = .ok text) ↔
        (Value.object fields).isShort = true ∧ (Value.object fields).levels ≤ room) ∧
      (∀ room, Endpoint.readBody room (payloadBytes (.object fields)) = .ok (readPayload (.object fields)) ↔
        (Value.object fields).isShort = true ∧ (Value.object fields).levels + 1 ≤ room) ∧
      ∀ m, Sends path (.object fields) m → ∃ request, Reads m path (.object fields) request := by
  refine ⟨fun _ => Wire.Envelope.exists_encode_iff.trans Value.fits_iff, Endpoint.readBody_payloadBytes json, ?_⟩
  intro m sends
  cases sends with
  | @parameter endpoint sent room text method place written q shallow =>
    have given : Endpoint.readQuery endpoint.room sent.q = .ok (.object fields) := by
      rw [q]
      exact mapError_eq_ok.mpr (Wire.Envelope.decode_encode json written shallow)
    exact Message.reads place (Endpoint.request_parameter method given)
  | body enabled method place q body => exact Message.reads place (Endpoint.request_body enabled method q body)
  | field read given =>
    exact Message.reads read.place (Service.request_read read (congrArg (Service.readQuery _) given))
  | @envelope service sent room text read written given shallow =>
    have opened : Service.readQuery service.room sent.query = .ok (.object fields) := by
      rw [given]
      exact mapError_eq_ok.mpr (Wire.Envelope.decode_encode json written shallow)
    exact Message.reads read.place (Service.request_read read opened)

def doubtfulNotes : Fields :=
  [("where", .object [("field", .text "note"), ("op", .text "like"), ("value", .text "?>%")]), ("limit", .int 5)]

def doubtfulEnvelope : String := String.ofList (Wire.Envelope.encodeChars (.object doubtfulNotes))

def doubtfulMessages : List Message :=
  [.exchange { config := {}, room := 2 } { method := "GET", path := "/orders", q := doubtfulEnvelope },
    .exchange { config := {}, room := 3, jsonPayloads := true }
      { method := "POST", path := "/orders", q := "e30", body := payloadBytes (.object doubtfulNotes) },
    .payload ⟨{}, 0⟩ { method := "GET", path := "orders", query := .object doubtfulNotes },
    .payload ⟨{}, 2⟩ { method := "GET", path := "/orders", query := .text doubtfulEnvelope }]

def doubtfulText : String := "SELECT * FROM \"orders\" WHERE \"note\" LIKE $1 LIMIT 5"

theorem reads_of_sends_doubtfulNotes : (Value.object doubtfulNotes).IsJson ∧
    ∀ m ∈ doubtfulMessages, Sends "orders" (.object doubtfulNotes) m ∧
      ∃ request stmt, Reads m "orders" (.object doubtfulNotes) request ∧
        Gate.toSql m.config request = .ok stmt ∧ stmt.sql.toList = doubtfulText.toList := by
  have json : (Value.object doubtfulNotes).IsJson := by simp [doubtfulNotes, Scalar.isJson]
  have written : Wire.Envelope.encode 2 (.object doubtfulNotes) = .ok doubtfulEnvelope :=
    Wire.Envelope.encode_ok_iff.mpr ⟨⟨by decide, by decide⟩, String.toList_ofList⟩
  have other : ∀ text ∈ some "e30", ∃ v, Wire.Envelope.decode 3 (.text text) = .ok v := by
    have read : (Wire.Envelope.decode 3 (.text "e30")).toOption.isSome = true := by decide
    obtain ⟨v, hv⟩ := Option.isSome_iff_exists.mp read
    exact fun text member => ⟨v, Option.some.inj member ▸ toOption_eq_some.mp hv⟩
  obtain ⟨-, payload, reads⟩ := @reads_of_sends "orders" _ json
  have body := (payload 3).mpr ⟨by decide, by decide⟩
  have sends : ∀ m ∈ doubtfulMessages, Sends "orders" (.object doubtfulNotes) m := by
    simp only [doubtfulMessages, List.forall_mem_cons]
    refine ⟨.parameter rfl (.inr rfl) written rfl (by decide), .body rfl rfl (.inr rfl) other body,
      .field ⟨rfl, .inl rfl, rfl⟩ rfl, .envelope ⟨rfl, .inr rfl, rfl⟩ written rfl (by decide), List.forall_mem_nil _⟩
  have compiled : ((Gate.toSql {} { method := "GET", path := "orders", query := .object doubtfulNotes }).toOption.map
      fun stmt => stmt.sql) = some doubtfulText := by decide +kernel
  obtain ⟨stmt, hstmt, text⟩ := toOption_map_eq_some.mp compiled
  refine ⟨json, fun m hm => ?_⟩
  have config : m.config = {} := by
    simp only [doubtfulMessages, List.mem_cons, List.not_mem_nil, or_false] at hm
    rcases hm with rfl | rfl | rfl | rfl <;> rfl
  obtain ⟨request, reads⟩ := reads m (sends m hm)
  exact ⟨sends m hm, request, stmt, reads, reads.outcome.trans (config ▸ hstmt), congrArg String.toList text⟩

theorem endlessRead_byFieldAlone :
    (∃ request, Reads (.payload ⟨{}, 1000⟩ (Gate.usersUpTo (10 ^ Numeral.maxDigits))) "users"
        (rowsUpTo (10 ^ Numeral.maxDigits)) request) ∧
      Wire.Envelope.encode 1000 (rowsUpTo (10 ^ Numeral.maxDigits)) = .error .longInteger ∧
      ∀ endpoint exchange request,
        ¬ Reads (.exchange endpoint exchange) "users" (rowsUpTo (10 ^ Numeral.maxDigits)) request := by
  refine ⟨?field, Wire.Envelope.encode_rowsUpTo Numeral.isLong_pow 999, ?text⟩
  case field =>
    have asked : (Message.payload ⟨{}, 1000⟩ (Gate.usersUpTo (10 ^ Numeral.maxDigits))).request =
      .ok (Gate.usersUpTo (10 ^ Numeral.maxDigits)) := rfl
    exact Message.reads (.inr rfl) asked
  case text =>
    intro endpoint exchange request reads
    have short := (Endpoint.request_fits reads.asked).2
    rw [reads.sent] at short
    have count := Value.isShort_object.mp short _ List.mem_cons_self
    rw [isShort_int, Numeral.isLong_pow] at count
    exact absurd count nofun

end Http
end QueryGate
