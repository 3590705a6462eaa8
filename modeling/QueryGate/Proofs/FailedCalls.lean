import QueryGate.Builder.Session

/-! A call that fails leaves no trace on the builder that it is made on. -/
namespace QueryGate

namespace Session
variable {ε ε' α β : Type}

theorem on_bind (x : Session ε α) (f : α → Session ε β) (b : Builder) :
    (x >>= f).on b = match x.on b with
      | (.ok a, after) => (f a).on after
      | (.error e, after) => (.error e, after) := by
  show (ExceptT.run (x >>= f)).run b = _
  rw [ExceptT.run_bind]
  simp only [on, StateT.run_bind]
  rcases (ExceptT.run x).run b with ⟨_ | _, after⟩ <;> rfl

theorem on_get_bind (f : Builder → Session ε α) (b : Builder) : (get >>= f).on b = (f b).on b := rfl

theorem on_ofExcept (x : Except ε α) (b : Builder) : (ofExcept x : Session ε α).on b = (x, b) := by
  cases x <;> rfl

theorem on_adapt (f : ε → ε') (x : Session ε α) (b : Builder) :
    on (ExceptT.adapt f x) b = ((x.on b).1.mapError f, (x.on b).2) := rfl

/-- Work that gives a builder or fails, done in place: where it fails, the builder is as before. -/
def settled (b : Builder) : Except BuilderFault Builder → Except BuilderFault Unit × Builder
  | .ok after => (.ok (), after)
  | .error f => (.error f, b)

theorem endGroup_on (b : Builder) : endGroup.on b = settled b b.closeGroup := by
  unfold endGroup Builder.closeGroup
  rw [on_get_bind]
  cases b.groups with
  | nil => rfl
  | cons g outer =>
    dsimp only
    split <;> rfl

theorem startJoin_on (kind table label : Value) (b : Builder) :
    (startJoin kind table label).on b = settled b (b.beginJoin kind table label) := by
  unfold startJoin Builder.beginJoin
  rw [on_get_bind]
  cases b.openJoin <;> rfl

theorem addOn_on (condition : Value) (b : Builder) : (addOn condition).on b = settled b (b.addOn condition) := by
  unfold addOn Builder.addOn
  rw [on_get_bind]
  cases b.openJoin <;> rfl

theorem endJoin_on (b : Builder) : endJoin.on b = settled b b.closeJoin := by
  unfold endJoin Builder.closeJoin
  rw [on_get_bind]
  cases b.openJoin with
  | none => rfl
  | some j =>
    dsimp only
    split <;> rfl

theorem take_on (step : BuilderStep) (b : Builder) : (take step).on b = settled b (b.apply step) := by
  cases step with
  | closeGroup => exact endGroup_on b
  | openJoin kind table label => exact startJoin_on kind table label b
  | on field operator operand => exact addOn_on _ b
  | closeJoin => exact endJoin_on b
  | join kind table field operator operand =>
    -- Only the first of the three can fail: it leaves a join that takes the condition, so that it can be ended.
    simp only [take, on_bind, startJoin_on, Builder.apply, Builder.beginJoin]
    cases b.openJoin <;> rfl
  | _ => rfl

theorem finish_on (b : Builder) : finish.on b = (b.toValue, b) := on_ofExcept b.toValue b

end Session

namespace BuilderCall
open Session
variable {b after : Builder} {call : BuilderCall} {calls : List BuilderCall} {r : BuilderReply}

theorem refused_on {name : String} {arguments : List Value} {f : CallFault}
    (h : BuilderStep.ofCall name arguments = .error f) (b : Builder) :
    (step name arguments).perform.on b = (.error (.refused f), b) := by
  simp only [perform, h, on_bind, on_ofExcept]
  rfl

theorem step_on {name : String} {arguments : List Value} {s : BuilderStep}
    (h : BuilderStep.ofCall name arguments = .ok s) (b : Builder) :
    (step name arguments).perform.on b =
      ((settled b (b.apply s)).1.mapError .failed >>= fun _ => .ok .done, (settled b (b.apply s)).2) := by
  rw [perform, h]
  show on (ExceptT.adapt CallFailure.failed (take s) >>= fun _ => pure BuilderReply.done) b = _
  rw [on_bind, on_adapt, take_on]
  cases b.apply s <;> rfl

theorem finish_bind_on {form : Value → Session CallFailure BuilderReply} (reads : ∀ v, ((form v).on b).2 = b) :
    (on (ExceptT.adapt .failed finish >>= form) b).2 = b := by
  rw [on_bind, on_adapt, finish_on]
  cases b.toValue with
  | error f => rfl
  | ok v => exact reads v

theorem failed_unchanged {f : CallFailure} (h : (call.perform.on b).1 = .error f) : (call.perform.on b).2 = b := by
  cases call with
  | step name arguments =>
    cases known : BuilderStep.ofCall name arguments with
    | error fault => rw [refused_on known]
    | ok s =>
      rw [step_on known] at h ⊢
      cases taken : b.apply s with
      | error fault => rfl
      | ok next => exact absurd (taken ▸ h) nofun
  | value => exact finish_bind_on fun _ => rfl
  | text room =>
    refine finish_bind_on fun v => ?_
    rw [on_bind, on_ofExcept]
    cases Wire.Envelope.encode room v <;> rfl
  | query o =>
    refine finish_bind_on fun v => ?_
    rw [on_bind, on_ofExcept]
    cases validate o v <;> rfl

theorem kept_failed {f : CallFailure} (h : (call.perform.on b).1 = .error f) :
    kept b (call :: calls) = kept b calls := by
  have same := failed_unchanged h
  rw [kept]
  revert h same
  rcases call.perform.on b with ⟨_ | _, after⟩
  · rintro - rfl
    rfl
  · exact nofun

theorem kept_done (h : (call.perform.on b).1 = .ok r) :
    kept b (call :: calls) = call :: kept (call.perform.on b).2 calls := by
  rw [kept]
  revert h
  rcases call.perform.on b with ⟨_ | _, after⟩
  · exact nofun
  · exact fun _ => rfl

/-- The calls that do not fail, made without those that do, give the same replies and leave the same builder. -/
theorem kept_on (b : Builder) (calls : List BuilderCall) :
    on ((kept b calls).mapM perform) b = (.ok ((replies b calls).filterMap (·.toOption)), left b calls) := by
  induction calls generalizing b with
  | nil => rfl
  | cons call rest ih =>
    rw [replies, left, List.foldl_cons, ← left]
    cases h : (call.perform.on b).1 with
    | error f =>
      rw [kept_failed h, failed_unchanged h]
      exact ih b
    | ok r =>
      have first : call.perform.on b = (.ok r, (call.perform.on b).2) := Prod.ext h rfl
      rw [kept_done h, List.mapM_cons, on_bind, first]
      dsimp only
      rw [on_bind, ih]
      rfl

end BuilderCall

/-- A step cannot be taken in a state: there is no open group or no open join that it could add to or end, there is
nothing in it yet, or a join is open where another one is to begin. -/
def BuilderStep.FailsOn (b : Builder) : BuilderStep → Prop
  | .closeGroup => ∀ g ∈ b.groups.head?, g.children = []
  | .openJoin .. | .join .. => b.openJoin ≠ none
  | .on .. => b.openJoin = none
  | .closeJoin => ∀ j ∈ b.openJoin, j.on = []
  | _ => False

def Builder.Unfinished (b : Builder) : Prop := b.groups ≠ [] ∨ ∃ j ∈ b.openJoin, j.on = []

namespace Builder

theorem apply_fails_iff (b : Builder) (step : BuilderStep) : (∃ f, b.apply step = .error f) ↔ step.FailsOn b := by
  cases step with
  | closeGroup =>
    unfold apply closeGroup BuilderStep.FailsOn
    cases b.groups with
    | nil => simp
    | cons g outer => by_cases empty : g.children = [] <;> simp [empty]
  | openJoin kind table label =>
    unfold apply beginJoin BuilderStep.FailsOn
    cases b.openJoin <;> simp
  | on field operator operand =>
    unfold apply addOn BuilderStep.FailsOn
    cases b.openJoin <;> simp
  | closeJoin =>
    unfold apply closeJoin BuilderStep.FailsOn
    cases b.openJoin with
    | none => simp
    | some j => by_cases empty : j.on = [] <;> simp [empty]
  | join kind table field operator operand =>
    unfold apply beginJoin BuilderStep.FailsOn
    cases b.openJoin with
    | none => simp [addOn, closeJoin, bind, Except.bind]
    | some j => simp [bind, Except.bind]
  | _ => simp [apply, BuilderStep.FailsOn]

theorem toValue_fails_iff (b : Builder) : (∃ f, b.toValue = .error f) ↔ b.Unfinished := by
  unfold toValue Unfinished
  cases b.groups with
  | cons g outer => simp
  | nil =>
    cases b.openJoin with
    | none => simp
    | some j => by_cases empty : j.on = [] <;> simp [empty]

end Builder

namespace BuilderCall
open Session
variable {b : Builder}

theorem step_fails_iff {name : String} {arguments : List Value} {s : BuilderStep}
    (h : BuilderStep.ofCall name arguments = .ok s) :
    (∃ f, ((step name arguments).perform.on b).1 = .error f) ↔ s.FailsOn b := by
  rw [← b.apply_fails_iff, step_on h]
  cases b.apply s with
  | error f => exact ⟨fun _ => ⟨f, rfl⟩, fun _ => ⟨.failed f, rfl⟩⟩
  | ok after => exact ⟨fun ⟨_, failed⟩ => (nomatch failed), fun ⟨_, failed⟩ => (nomatch failed)⟩

theorem value_fails_iff : (∃ f, (value.perform.on b).1 = .error f) ↔ b.Unfinished := by
  rw [← b.toValue_fails_iff, perform, on_bind, on_adapt, finish_on]
  cases b.toValue with
  | error f => exact ⟨fun _ => ⟨f, rfl⟩, fun _ => ⟨.failed f, rfl⟩⟩
  | ok v => exact ⟨fun ⟨_, failed⟩ => (nomatch failed), fun ⟨_, failed⟩ => (nomatch failed)⟩

/-- A builder that some calls have left is the one that those of them leave that do not fail, which give the same
replies without the others. A step fails on it only where it cannot be taken, and the query only where something is
left unfinished; a failure leaves the builder as it was, and so does the query. -/
theorem failed_noTrace (calls : List BuilderCall) :
    on ((kept .new calls).mapM perform) .new = (.ok ((replies .new calls).filterMap (·.toOption)), left .new calls) ∧
      (∀ (call : BuilderCall) (f : CallFailure), (call.perform.on (left .new calls)).1 = .error f →
        (call.perform.on (left .new calls)).2 = left .new calls) ∧
      (∀ (name : String) (arguments : List Value) (s : BuilderStep), BuilderStep.ofCall name arguments = .ok s →
        ((∃ f, ((step name arguments).perform.on (left .new calls)).1 = .error f) ↔ s.FailsOn (left .new calls))) ∧
      ((∃ f, (value.perform.on (left .new calls)).1 = .error f) ↔ (left .new calls).Unfinished) ∧
      (value.perform.on (left .new calls)).2 = left .new calls :=
  ⟨kept_on .new calls, fun _ _ => failed_unchanged, fun _ _ _ => step_fails_iff, value_fails_iff,
    finish_bind_on fun _ => rfl⟩

example : left .new [.step "start_join" [.text "LEFT", .text "orders"],
      .step "join" [.text "INNER", .text "items", .text "a.id", .text "=", .text "b.id"]] =
    left .new [.step "start_join" [.text "LEFT", .text "orders"]] := rfl

end BuilderCall
end QueryGate
