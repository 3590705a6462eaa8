import QueryGate.Builder.Call
import QueryGate.Validation.Query
import QueryGate.Wire.Envelope

/-!
Calls on a builder that is changed in place. What a call does, it does in order: where it fails, all that it has
done by then is left done.
-/
namespace QueryGate

abbrev Session (ε : Type) := ExceptT ε (StateM Builder)

namespace Session

def on {ε α : Type} (work : Session ε α) (b : Builder) : Except ε α × Builder := (ExceptT.run work).run b

def add (entry : Value) : Session BuilderFault Unit := modify (·.addEntry entry)

def endGroup : Session BuilderFault Unit := do
  match (← get).groups with
  | [] => throw .noOpenGroup
  | g :: outer =>
    if g.children.isEmpty then throw .groupEmpty
    else
      modify ({ · with groups := outer })
      add g.value

def startJoin (kind table label : Value) : Session BuilderFault Unit := do
  match (← get).openJoin with
  | some _ => throw .joinStillOpen
  | none => modify ({ · with openJoin := some { kind := kind, table := table, label := label } })

def addOn (condition : Value) : Session BuilderFault Unit := do
  match (← get).openJoin with
  | none => throw .conditionOutsideJoin
  | some j => modify ({ · with openJoin := some { j with on := j.on ++ [condition] } })

def endJoin : Session BuilderFault Unit := do
  match (← get).openJoin with
  | none => throw .noOpenJoin
  | some j =>
    if j.on.isEmpty then throw .joinEmpty
    else modify fun b => { b with joins := b.joins ++ [j], openJoin := none }

/-- A join with one condition is started, given the condition and ended. -/
def take : BuilderStep → Session BuilderFault Unit
  | .select names => modify ({ · with select := names })
  | .filter field operator operand => add (conditionValue field operator operand)
  | .group operator children negate =>
    add (OpenGroup.value { operator := operator, negate := negate, children := children })
  | .openGroup operator negate =>
    modify fun b => { b with groups := { operator := operator, negate := negate } :: b.groups }
  | .closeGroup => endGroup
  | .openJoin kind table label => startJoin kind table label
  | .on field operator operand => addOn (conditionValue field operator operand)
  | .closeJoin => endJoin
  | .join kind table field operator operand => do
    startJoin kind table .null
    addOn (conditionValue field operator operand)
    endJoin
  | .groupBy names => modify ({ · with groupBy := names })
  | .having field operator operand =>
    modify fun b => { b with having := b.having ++ [conditionValue field operator operand] }
  | .orderBy field direction =>
    modify fun b => { b with orderBy := b.orderBy ++ [.object [("field", field), ("direction", direction)]] }
  | .limit count => modify ({ · with limit := count })
  | .offset count => modify ({ · with offset := count })

def finish : Session BuilderFault Value := do
  ofExcept (← get).toValue

end Session

inductive BuilderCall where
  | step (name : String) (arguments : List Value)
  | value
  | text (room : Nat)
  | query (o : ValidationOptions)

inductive BuilderReply where
  | done
  | value (v : Value)
  | text (s : String)
  | query (q : Query)

inductive CallFailure where
  | refused (f : CallFault)
  | failed (f : BuilderFault)
  | invalid (f : QueryFault)
  | unwritable (f : Json.Unwritable)

namespace BuilderCall

def perform : BuilderCall → Session CallFailure BuilderReply
  | .step name arguments => do
    let step ← ofExcept ((BuilderStep.ofCall name arguments).mapError .refused)
    ExceptT.adapt .failed (Session.take step)
    return .done
  | .value => do
    return .value (← ExceptT.adapt .failed Session.finish)
  | .text room => do
    let v ← ExceptT.adapt .failed Session.finish
    return .text (← ofExcept ((Wire.Envelope.encode room v).mapError .unwritable))
  | .query o => do
    let v ← ExceptT.adapt .failed Session.finish
    return .query (← ofExcept ((validate o v).mapError .invalid))

def replies (b : Builder) : List BuilderCall → List (Except CallFailure BuilderReply)
  | [] => []
  | call :: rest => (call.perform.on b).1 :: replies (call.perform.on b).2 rest

def left (b : Builder) (calls : List BuilderCall) : Builder :=
  calls.foldl (fun b call => (call.perform.on b).2) b

def kept (b : Builder) : List BuilderCall → List BuilderCall
  | [] => []
  | call :: rest =>
    match call.perform.on b with
    | (.ok _, after) => call :: kept after rest
    | (.error _, after) => kept after rest

end BuilderCall
end QueryGate
