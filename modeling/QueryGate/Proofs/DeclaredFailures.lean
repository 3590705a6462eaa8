import QueryGate.Http.Rest
import QueryGate.Proofs.JsonValue
import QueryGate.Proofs.LongCounts
import QueryGate.Proofs.NamedRows

/-! A request fails in a declared way: it is refused, lacks something or has an unknown method. Only a group whose
connective is a list or an object gets past that, and an integer without a text. -/
namespace QueryGate
open Outcome

/-- The failures that the gate declares: refusals, missing values and unsupported methods. -/
def Failure.IsDeclared : Failure → Prop
  | .invalid f => f.IsRefusal
  | .missing _ => True
  | .unsupportedMethod _ => True
  | _ => False

def Failure.IsLongInteger (f : Failure) : Prop := f = .invalid .longInteger ∨ f = .longInteger

theorem Outcome.Fails.declared {α : Type} {x : Except QueryFault α} (h : Refuses x) :
    Fails Failure.IsDeclared (x.mapError .invalid) := Fails.mapError h

namespace Request

end Request

namespace Sql

theorem rowFilter_total {op : UpdateOp} {row : Fields} {ids : List Scalar} (named : Request.ById op ids)
    (alone : op.rows = [row]) : ∃ ps, rowFilter op row = .ok ps := by
  obtain ⟨id, -, found⟩ := byId_alone named alone
  unfold rowFilter
  cases op.filter.isEmpty with
  | false => exact ⟨_, rfl⟩
  | true =>
    rw [found]
    exact ⟨_, rfl⟩

end Sql

namespace Gate

/-- What stops a request: a declared failure, the connective of a group in its query, or an integer without a text
that stands in its query or among the limits of the gate. -/
inductive Stops (config : Config) (request : Request) : Failure → Prop
  | declared {f : Failure} (h : f.IsDeclared) : Stops config request f
  | connective {c : Composite} {group : Value} (inside : group.Inside request.query) (odd : group.IsOddGroup c) :
      Stops config request (.invalid (.notComparable c))
  | longInteger {f : Failure} (h : f.IsLongInteger)
      (long : request.query.isShort = false ∨ ∃ n ∈ config.limits, Numeral.isLong n = true) : Stops config request f

end Gate

structure Request.Fits (room : Nat) (request : Request) : Prop where
  query : request.query.levels ≤ room
  body : request.body.levels ≤ room

namespace Http

namespace Endpoint

theorem readQuery_fits {room : Nat} {q : Option String} {v : Value} (h : readQuery room q = .ok v) : v.Fits room := by
  unfold readQuery at h
  split at h
  · obtain rfl := Except.ok.inj h
    exact Value.fits_scalar.mpr rfl
  · have decoded := mapError_eq_ok.mp h
    obtain ⟨-, decoded⟩ := unless_eq_ok.mp decoded
    obtain ⟨bytes, -, decoded⟩ := bind_eq_ok.mp decoded
    obtain ⟨text, -, decoded⟩ := bind_eq_ok.mp decoded
    exact Json.read_fits (mapError_eq_ok.mp decoded)

theorem readBody_fits {room : Nat} {bytes : List UInt8} {v : Value} (h : readBody room bytes = .ok v) :
    v.Fits room := by
  unfold readBody at h
  split at h
  · obtain rfl := Except.ok.inj h
    exact Value.fits_scalar.mpr rfl
  · split at h
    · split at h
      · exact absurd h nofun
      · exact absurd h nofun
    · split at h
      · split at h
        · exact absurd h nofun
        · exact absurd h nofun
      next read =>
        obtain rfl := Except.ok.inj h
        exact Json.readAll_fits read

theorem payloadQuery?_inside {body query : Value} (h : payloadQuery? body = some query) : query.Inside body := by
  unfold payloadQuery? at h
  split at h
  next fields =>
    split at h
    · obtain ⟨-, found⟩ := Option.ite_none_right_eq_some.mp h
      obtain ⟨before, after, rfl, -⟩ := List.lookup_eq_some_iff.mp found
      exact .field (List.mem_append_right _ List.mem_cons_self) (.here _)
    · exact absurd h nofun
  · exact absurd h nofun

theorem request_fits {endpoint : Endpoint} {exchange : Exchange} {request : Request}
    (h : endpoint.request exchange = .ok request) : request.Fits endpoint.room ∧ request.query.isShort = true := by
  obtain ⟨query, hquery, h⟩ := bind_eq_ok.mp h
  obtain ⟨body, hbody, h⟩ := bind_eq_ok.mp h
  have query_fits := readQuery_fits hquery
  have body_fits : body.Fits endpoint.room := by
    unfold Endpoint.body at hbody
    split at hbody
    · obtain rfl := Except.ok.inj hbody
      exact Value.fits_scalar.mpr rfl
    · exact readBody_fits hbody
  rw [← Except.ok.inj h, requestOf]
  split
  next payload found =>
    obtain ⟨-, found⟩ := Option.ite_none_right_eq_some.mp found
    have fits := (payloadQuery?_inside found).fits body_fits
    exact ⟨⟨fits.shallow, Nat.zero_le _⟩, fits.short⟩
  next => exact ⟨⟨query_fits.shallow, body_fits.shallow⟩, query_fits.short⟩

end Endpoint
end Http
end QueryGate
