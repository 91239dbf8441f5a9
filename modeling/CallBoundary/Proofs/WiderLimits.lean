import CallBoundary.Proofs.GasBooks
/-! Runs under a wider limit. A meter that is not exhausted at the end never was, so every charge on it went
through, and would have gone through under any wider limit as well. A frame that neither reads its meter nor
sets limits cannot tell the two limits apart until the narrower one is passed; and once that is passed, the frame
ends for want of gas whatever its program makes of the refusals. The frames it calls have limits of their own. -/
namespace CallBoundary

structure Gas.Wider (limit wider : Gas) : Prop where
  limited : limit ≠ 0
  larger : wider = 0 ∨ limit < wider

namespace Meter

variable {m : Meter} {limit : Gas}

theorem sparedWider (wider : Gas.Wider m.limit limit) (spared : m.exhausted = false) :
    (m.withLimit limit).exhausted = false := by
  rw [← Bool.not_eq_true, exhaustedToNat] at spared ⊢
  rintro ⟨positive, passed⟩
  have limited : m.limit.toNat ≠ 0 := fun zero => wider.limited (UInt64.toNat_inj.mp zero)
  simp only [withLimit] at positive passed
  rcases wider.larger with none | larger
  · rw [none] at positive
    exact Nat.lt_irrefl 0 positive
  · rw [UInt64.lt_iff_toNat_lt] at larger
    omega

theorem consumeAllWider {charges : List Gas} (wider : Gas.Wider m.limit limit)
    (spared : (m.consumeAll charges).exhausted = false) :
    (m.withLimit limit).consumeAll charges = (m.consumeAll charges).withLimit limit := by
  induction charges generalizing m with
  | nil => rfl
  | cons gas rest ih =>
    simp only [consumeAll] at spared ⊢
    cases passed : (m.consume gas).exhausted with
    | true =>
      rw [passed, if_pos rfl, passed] at spared
      cases spared
    | false =>
      have also : ((m.withLimit limit).consume gas).exhausted = false := sparedWider (m := m.consume gas) wider passed
      rw [passed] at spared
      rw [also]
      exact ih (m := m.consume gas) wider spared

end Meter

namespace Overlay

variable {o : Overlay} {m : Meter} {limit : Gas}

theorem queryWider {q : Query} (wider : Gas.Wider m.limit limit) (spared : (o.query m q).2.exhausted = false) :
    o.query (m.withLimit limit) q = ((o.query m q).1, (o.query m q).2.withLimit limit) := by
  unfold query at spared ⊢
  cases refused : queryFault? q with
  | some fault => rfl
  | none =>
    rw [refused] at spared
    have left : (m.consumeAll (o.queryCharges q)).exhausted = false := by
      dsimp only at spared
      split at spared <;> exact spared
    have limits := m.consumeAllLimit (o.queryCharges q)
    have also := Meter.sparedWider (limits.symm ▸ wider) left
    simp only [Meter.consumeAllWider wider left, left, also]
    rfl

theorem updateWider {u : Update} (wider : Gas.Wider m.limit limit) (spared : (o.update m u).2.1.exhausted = false) :
    o.update (m.withLimit limit) u = ((o.update m u).1, (o.update m u).2.1.withLimit limit, (o.update m u).2.2) := by
  unfold update at spared ⊢
  cases refused : updateFault? u with
  | some fault => rfl
  | none =>
    rw [refused] at spared
    have left : (m.consume (o.updateCharge u)).exhausted = false := by
      dsimp only at spared
      split at spared <;> exact spared
    have also : ((m.withLimit limit).consume (o.updateCharge u)).exhausted = false :=
      Meter.sparedWider (m := m.consume (o.updateCharge u)) wider left
    simp only [left, also]
    rfl

end Overlay

/-! What touches limits. -/

def Operation.limitsTouched : Operation → Nat
  | .ask .meter | .setGasLimit _ => 1
  | _ => 0

def Trace.limitsTouched {ν : Type} (t : Trace ν) : Nat := tally (fun op _ => op.limitsTouched) (fun _ => true) t

def Interpreter.LimitBlind {ν : Type} (interpreter : Interpreter ν) : Prop :=
  ∀ (activation : Activation) (limit : Gas), interpreter { activation with gasLimit := limit } = interpreter activation

theorem Operation.limitsSetTouched (op : Operation) : op.limitsSet ≤ op.limitsTouched := by
  cases op with
  | setGasLimit limit => exact Nat.le_refl 1
  | query _ | update _ | ask _ | consumeGas _ | commit | call _ | deploy _ => exact Nat.zero_le _

namespace Trace

variable {ν : Type}

theorem limitsSetTouched (t : Trace ν) : t.limitsSet ≤ t.limitsTouched :=
  tallyLe (fun op _ => op.limitsSetTouched) (fun _ entered => entered) t

theorem limitsTouchedNoted (n : ν) (t : Trace ν) : limitsTouched (.noted n :: t) = t.limitsTouched := by
  simp [limitsTouched, tally, Item.tally]

theorem limitsTouchedThen (inside : Trace ν) (op : Operation) (answer : op.Answer) (t : Trace ν) :
    (inside ++ .performed op answer :: t).limitsTouched = inside.limitsTouched + op.limitsTouched + t.limitsTouched := by
  simp only [limitsTouched, tallyAppend, tally, Item.tally, Nat.add_assoc]

end Trace

namespace Frame

variable {ν : Type}

/-! Once exhausted, always exhausted. -/

section

variable {E : Type} [Host E] {level : Level ν E} {f : Frame E}

theorem stepStaysExhausted {op : Operation} (kept : op.limitsSet = 0) (exhausted : f.meter.exhausted = true) :
    (f.step level op).2.1.meter.exhausted = true := by
  cases op with
  | setGasLimit limit => cases kept
  | ask p => exact exhausted
  | commit => exact (congrArg Meter.exhausted (f.commitMeter level)).trans exhausted
  | query _ | update _ | consumeGas _ | call _ | deploy _ =>
    exact (stepStuck exhausted (fun _ same => by cases same) (.inr Operation.noConfusion)).meter

theorem execStaysExhausted (level : Level ν E) (p : Program ν (Option Bytes)) (f : Frame E) :
    (p.exec level f).trace.limitsSet = 0 → f.meter.exhausted = true → (p.exec level f).meter.exhausted = true := by
  refine p.execTraces (R := fun before t after =>
    t.limitsSet = 0 → before.meter.exhausted = true → after.meter.exhausted = true) ?_ ?_ ?_ f
  · exact fun f _ exhausted => exhausted
  · intro f after t n later kept exhausted
    exact later (Trace.limitsSetNoted n t ▸ kept) exhausted
  · intro f after t op later kept exhausted
    rw [Trace.limitsSetThen] at kept
    exact later (by omega) (stepStaysExhausted (by omega) exhausted)

end

/-! One frame under two limits. -/

def relimited {E : Type} (limit : Gas) (f : Frame E) : Frame E := { f with meter := f.meter.withLimit limit }

theorem recordIfRelimited {E α : Type} (limit : Gas) (f : Frame E) (attempt : Option Attempt)
    (answer : Except Fault (Metered α)) :
    (f.relimited limit).recordIf attempt answer = (f.recordIf attempt answer).relimited limit := by
  cases attempt with
  | none => rfl
  | some attempt =>
    cases answer with
    | ok value => rfl
    | error fault => cases fault <;> rfl

theorem enterRelimited {E : Type} [Host E] (limit : Gas) (level : Level ν E) (f : Frame E) (attempt : Attempt)
    (amount : Amount) (activation : Activation) :
    (f.relimited limit).enter level attempt amount activation =
      ((f.enter level attempt amount activation).1, (f.enter level attempt amount activation).2.1.relimited limit,
        (f.enter level attempt amount activation).2.2) := by
  simp only [enter, relimited]
  cases level.enter with
  | none => rfl
  | some run =>
    cases Host.derive f.host activation.contract amount (activation.entry = .constructor) with
    | mk answer host => cases answer <;> rfl

variable {level : Level ν Overlay} {f : Frame Overlay} {limit : Gas}

theorem queryWider {q : Query} (wider : Gas.Wider f.meter.limit limit) (spared : (f.query q).2.meter.exhausted = false) :
    (f.relimited limit).query q = ((f.query q).1, (f.query q).2.relimited limit) := by
  cases before : f.meter.exhausted with
  | true =>
    rw [queryExhausted before, before] at spared
    cases spared
  | false =>
    have also : (f.relimited limit).meter.exhausted = false := Meter.sparedWider wider before
    rw [querySpared before, recordIfMeter] at spared
    rw [querySpared before, querySpared also, ← recordIfRelimited]
    have asked : Host.query f.host (f.meter.withLimit limit) q = _ := Overlay.queryWider wider spared
    simp only [relimited, asked]
    rfl

theorem updateWider {u : Update} (wider : Gas.Wider f.meter.limit limit)
    (spared : (f.update u).2.meter.exhausted = false) :
    (f.relimited limit).update u = ((f.update u).1, (f.update u).2.relimited limit) := by
  cases before : f.meter.exhausted with
  | true =>
    rw [updateExhausted before, before] at spared
    cases spared
  | false =>
    have also : (f.relimited limit).meter.exhausted = false := Meter.sparedWider wider before
    rw [updateSpared before, recordIfMeter] at spared
    rw [updateSpared before, updateSpared also, ← recordIfRelimited]
    have asked : Host.update f.host (f.meter.withLimit limit) u = _ := Overlay.updateWider wider spared
    simp only [relimited, asked]
    rfl

theorem callWider (wider : Gas.Wider f.meter.limit limit) (spared : f.meter.exhausted = false) (level : Level ν Overlay)
    (c : Call) :
    (f.relimited limit).call level c = ((f.call level c).1, (f.call level c).2.1.relimited limit, (f.call level c).2.2) := by
  have also : (f.relimited limit).meter.exhausted = false := Meter.sparedWider wider spared
  unfold call
  rw [also, spared]
  have host : (f.relimited limit).host = f.host := rfl
  rw [host]
  cases Host.code? f.host c.contract with
  | none => rfl
  | some code => simp only [Bool.false_eq_true, if_false, enterRelimited]

theorem deployWider (wider : Gas.Wider f.meter.limit limit) (level : Level ν Overlay) (d : Deployment)
    (spared : (f.query (.addressOfCode d.code d.args d.nonce)).2.meter.exhausted = false) :
    (f.relimited limit).deploy level d =
      ((f.deploy level d).1, (f.deploy level d).2.1.relimited limit, (f.deploy level d).2.2) := by
  unfold deploy
  rw [queryWider wider spared]
  cases f.query (.addressOfCode d.code d.args d.nonce) with
  | mk answer paid =>
    cases answer with
    | error fault => rfl
    | ok derived =>
      obtain ⟨contract, gas⟩ := derived
      have host : (paid.relimited limit).host = paid.host := rfl
      simp only [host]
      cases Host.codeHash? paid.host contract with
      | some hash => rfl
      | none => simp only [enterRelimited]

theorem stepWider {op : Operation} (blind : op.limitsTouched = 0) (wider : Gas.Wider f.meter.limit limit)
    (spared : (f.step level op).2.1.meter.exhausted = false) :
    (f.relimited limit).step level op =
      ((f.step level op).1, (f.step level op).2.1.relimited limit, (f.step level op).2.2) := by
  cases op with
  | query q => simp only [step, queryWider wider spared]
  | update u => simp only [step, updateWider wider spared]
  | ask p =>
    cases p with
    | meter => cases blind
    | depth | settings | reports | debug => rfl
  | consumeGas gas =>
    have left : (f.meter.consume gas).exhausted = false := spared
    have also : ((f.relimited limit).meter.consume gas).exhausted = false :=
      Meter.sparedWider (m := f.meter.consume gas) wider left
    simp only [step, consumeGas, left, also]
    rfl
  | setGasLimit limit => cases blind
  | commit =>
    simp only [step, commit, relimited]
    split
    · rfl
    · cases Host.commit f.host with
      | mk answer host => cases answer <;> rfl
  | call c =>
    have left : f.meter.exhausted = false := (congrArg Meter.exhausted (f.callMeter level c)).symm.trans spared
    exact callWider wider left level c
  | deploy d =>
    have left := (congrArg Meter.exhausted (f.deployMeter level d)).symm.trans spared
    exact deployWider wider level d left

end Frame

namespace Finished

variable {ν E : Type}

def relimited (limit : Gas) (f : Finished ν E) : Finished ν E := { f with toFrame := f.toFrame.relimited limit }

theorem resultRelimited {f : Finished ν E} {limit : Gas} (wider : Gas.Wider f.meter.limit limit)
    (spared : f.meter.exhausted = false) : (f.relimited limit).result = f.result := by
  have also : (f.relimited limit).meter.exhausted = false := Meter.sparedWider wider spared
  rw [result, result, spared, also]
  rfl

end Finished

theorem Program.execWider {ν : Type} {level : Level ν Overlay} {p : Program ν (Option Bytes)} {f : Frame Overlay}
    {limit : Gas} (wider : Gas.Wider f.meter.limit limit) (untouched : (p.exec level f).trace.limitsTouched = 0)
    (spared : (p.exec level f).meter.exhausted = false) :
    p.exec level (f.relimited limit) = (p.exec level f).relimited limit := by
  induction p generalizing f with
  | ret output | raise fault | panic text => rfl
  | note n next ih =>
    have later := ih wider ((Trace.limitsTouchedNoted n _).symm.trans untouched) spared
    simp only [exec, later]
    rfl
  | perform op next ih =>
    have whole := (Trace.limitsTouchedThen (f.step level op).2.2 op (f.step level op).1
      ((next (f.step level op).1).exec level (f.step level op).2.1).trace).symm.trans untouched
    have rest : ((next (f.step level op).1).exec level (f.step level op).2.1).meter.exhausted = false := spared
    have touched : ((next (f.step level op).1).exec level (f.step level op).2.1).trace.limitsTouched = 0 := by omega
    -- Had the meter been exhausted here, it would still be.
    have left : (f.step level op).2.1.meter.exhausted = false := by
      by_contra passed
      have unset := Nat.le_zero.mp (touched ▸ Trace.limitsSetTouched _)
      have still := Frame.execStaysExhausted level _ _ unset (Bool.not_eq_false _ ▸ passed)
      exact Bool.false_ne_true (rest.symm.trans still)
    have blind : op.limitsTouched = 0 := by omega
    have kept := f.stepLimit Overlay.metering level op (Nat.le_zero.mp (blind ▸ op.limitsSetTouched))
    have stepped := Frame.stepWider blind wider left
    have later := ih (f.step level op).1 (kept.symm ▸ wider) touched rest
    simp only [exec, stepped, later]
    rfl

namespace Report

def relimited (limit : Gas) (r : Report) : Report :=
  { r with
    attempt := r.attempt.map fun a => { a with gasLimit := limit }
    remainingGas := Gas.less limit r.gasUsed }

theorem boundRelimited (levels : Nat) (limit : Gas) (r : Report) :
    boundBelow levels (r.relimited limit) = (boundBelow levels r).relimited limit := by
  obtain ⟨attempt, success, error, gasUsed, remainingGas, output, subs⟩ := r
  cases levels <;> cases attempt <;> rfl

theorem ofInvocationRelimited {result : Result} (spared : result ≠ .error .outOfGas) (attempt : Attempt)
    (before limit gasUsed : Gas) (subs : List Report) :
    ofInvocation { attempt with gasLimit := limit } limit gasUsed subs result =
      (ofInvocation attempt before gasUsed subs result).relimited limit := by
  have whole : whole { attempt with gasLimit := limit } limit gasUsed subs result =
      (whole attempt before gasUsed subs result).relimited limit := by
    cases result with
    | ok output => rfl
    | error failure =>
      have other : failure ≠ .outOfGas := fun same => spared (same ▸ rfl)
      simp only [Report.whole, relimited, if_neg other]
      rfl
  rw [ofInvocation, whole, bounded, boundRelimited]
  rfl

end Report

theorem Outcome.outOfGasStatus {o : Outcome} (starved : o.result = .error .outOfGas) : o.status = .outOfGas := by
  rw [status, starved]
  rfl

def Trace.Item.relimited {ν : Type} (limit : Gas) : Trace.Item ν → Trace.Item ν
  | .ran depth activation items ending meter commitFault =>
    .ran depth { activation with gasLimit := limit } items ending (meter.withLimit limit) commitFault
  | item => item

structure Launch.AlikeUnder {ν : Type} (limit : Gas) (first second : Outcome × Overlay × Trace ν) : Prop where
  contract : second.1.contract = first.1.contract
  result : second.1.result = first.1.result
  gasUsed : second.1.gasUsed = first.1.gasUsed
  report : ∃ r : Report, r.gasUsed = first.1.gasUsed ∧ first.1.report = r.encode ∧
    second.1.report = (r.relimited limit).encode
  host : second.2.1 = first.2.1
  trace : second.2.2 = first.2.2.map (Trace.Item.relimited limit)

theorem Launch.reportedAlike {ν : Type} {limit : Gas} {contract : Address} {result : Result} {r : Report}
    {o : Overlay} {t : Trace ν} :
    AlikeUnder limit (Outcome.ofReport contract r result, o, t)
      (Outcome.ofReport contract (r.relimited limit) result, o, t.map (Trace.Item.relimited limit)) where
  contract := rfl
  result := rfl
  gasUsed := rfl
  report := ⟨r, rfl, rfl, rfl⟩
  host := rfl
  trace := rfl

variable {ν : Type} {b : Boundary ν}

theorem Boundary.runWider (blind : b.interpreter.LimitBlind) {o : Overlay} {activation : Activation} {limit : Gas}
    (wider : Gas.Wider activation.gasLimit limit) (attempt : Attempt)
    (untouched : (b.run o attempt activation).2.2.limitsTouched = 0)
    (finished : (b.run o attempt activation).1.result ≠ .error .outOfGas) :
    Launch.AlikeUnder limit (b.run o attempt activation)
      (b.run o { attempt with gasLimit := limit } { activation with gasLimit := limit }) := by
  have spared : ((b.interpreter activation).exec b.top (Frame.ofLimit o activation.gasLimit)).meter.exhausted = false := by
    by_contra passed
    exact finished (if_pos (Bool.not_eq_false _ ▸ passed))
  have kept := (b.tracingLimit Overlay.metering).execTop (b.interpreter activation)
    (Frame.ofLimit o activation.gasLimit) (Nat.le_zero.mp (untouched ▸ Trace.limitsSetTouched _))
  have later : (b.interpreter { activation with gasLimit := limit }).exec b.top (Frame.ofLimit o limit) =
      ((b.interpreter activation).exec b.top (Frame.ofLimit o activation.gasLimit)).relimited limit := by
    rw [blind activation limit]
    exact Program.execWider wider untouched spared
  simp only [Boundary.run, later] at finished ⊢
  generalize (b.interpreter activation).exec b.top (Frame.ofLimit o activation.gasLimit) = first at *
  have stays : Gas.Wider first.meter.limit limit := by
    rw [kept]
    exact wider
  have report : (first.relimited limit).report { attempt with gasLimit := limit } limit first.result =
      (first.report attempt activation.gasLimit first.result).relimited limit :=
    Report.ofInvocationRelimited finished attempt activation.gasLimit limit first.meter.consumed first.reports
  rw [Finished.resultRelimited stays spared, report]
  exact Launch.reportedAlike

theorem Launch.declinedAlike (contract : Address) {failure : Failure} (spared : failure ≠ .outOfGas) (attempt : Attempt)
    (o : Overlay) (limit : Gas) :
    AlikeUnder limit (Outcome.ofRejection contract attempt failure, o, ([] : Trace ν))
      (Outcome.ofRejection contract { attempt with gasLimit := limit } failure, o, []) := by
  have failed : (.error failure : Result) ≠ .error .outOfGas := fun same => spared (Except.error.inj same)
  have report := Report.ofInvocationRelimited failed attempt attempt.gasLimit limit 0 []
  simp only [Outcome.ofRejection, Report.ofRejection, report]
  exact reportedAlike

def Launch.withGasLimit (limit : Gas) : Launch → Launch
  | execute contract method args _ => execute contract method args limit
  | deploy contract code args _ => deploy contract code args limit

/-- A launch that does not run out of gas goes the same way under any wider limit, as long as no frame in it looks at
a meter or sets a limit and what is interpreted does not depend on the limit. -/
theorem Launch.widerLimitsChangeNothing (blind : b.interpreter.LimitBlind) (o : Overlay) (l : Launch) {limit : Gas}
    (wider : Gas.Wider l.invocation.gasLimit limit) (untouched : (l.run b o).2.2.limitsTouched = 0)
    (finished : (l.run b o).1.status ≠ .outOfGas) : AlikeUnder limit (l.run b o) ((l.withGasLimit limit).run b o) := by
  have finished := mt Outcome.outOfGasStatus finished
  cases l with
  | execute contract method args gasLimit =>
    simp only [run, withGasLimit, Boundary.execute] at untouched finished ⊢
    cases found : Host.code? o contract with
    | none => exact Launch.declinedAlike _ Failure.noConfusion ..
    | some code =>
      rw [found] at untouched finished
      exact Boundary.runWider blind wider _ untouched finished
  | deploy contract code args gasLimit =>
    simp only [run, withGasLimit, Boundary.deploy] at untouched finished ⊢
    cases found : Host.codeHash? o contract with
    | some hash => exact Launch.declinedAlike _ Failure.noConfusion ..
    | none =>
      rw [found] at untouched finished
      exact Boundary.runWider blind wider _ untouched finished

theorem Launch.tollRunsAlike :
    (tollLaunch.run toll Boundary.relayRoot).1.status ≠ .outOfGas ∧
      AlikeUnder 20000 (tollLaunch.run toll Boundary.relayRoot) ((tollLaunch.withGasLimit 20000).run toll Boundary.relayRoot) ∧
      AlikeUnder 0 (tollLaunch.run toll Boundary.relayRoot) ((tollLaunch.withGasLimit 0).run toll Boundary.relayRoot) := by
  have blind : toll.interpreter.LimitBlind := fun _ _ => rfl
  have untouched : (tollLaunch.run toll Boundary.relayRoot).2.2.limitsTouched = 0 := by decide +kernel
  have finished : (tollLaunch.run toll Boundary.relayRoot).1.status ≠ .outOfGas := by decide +kernel
  exact ⟨finished,
    widerLimitsChangeNothing blind Boundary.relayRoot tollLaunch ⟨by decide, .inr (by decide)⟩ untouched finished,
    widerLimitsChangeNothing blind Boundary.relayRoot tollLaunch ⟨by decide, .inl rfl⟩ untouched finished⟩

end CallBoundary
