import CallBoundary.Proofs.Lookalikes
import CallBoundary.Proofs.WiderLimits
/-! Frames side by side. Two frames that look alike stay so: an operation that cannot tell them apart has the same
answer in both, comes to the same writes and the same reports, and leaves them with the same meter. The same holds
of what is entered from them, if it holds of what runs below; so two runs can be compared from their
single operations. -/
namespace CallBoundary

open Overlay

variable {ν : Type} {cells : Cell → Prop} {standing : Prop}

-- Of the operations that stay in a frame, those that cannot tell environments that are alike from each other, at
-- levels of one boundary.
def Operation.Within (cells : Cell → Prop) (standing : Prop) (own : Address) : Operation → Prop
  | query q => q.Within cells standing own
  | ask .depth => standing
  | commit | call _ | deploy _ => False
  | update _ | ask _ | consumeGas _ | setGasLimit _ => True

theorem Activation.openedFree {a : Activation} (called : a.entry ≠ .constructor) (o : Overlay) :
    a.opened? o Amount.zero = some (o.child a.contract Amount.zero) := by
  simp only [opened?, Host.derive, Overlay.derive, called, decide_false]
  rfl

namespace Frame

structure Alike (cells : Cell → Prop) (standing : Prop) (f g : Frame Overlay) : Prop where
  meter : g.meter = f.meter
  reports : g.reports = f.reports
  host : f.host.Alike cells standing g.host

structure Abreast (w : Changes) (rs : List Report) (f g after twin : Frame Overlay) : Prop where
  took : BothTook w f.host g.host after.host twin.host
  meter : twin.meter = after.meter
  first : after.reports = f.reports ++ rs
  second : twin.reports = g.reports ++ rs

structure RanAbreast (f g : Frame Overlay) (first second : Finished ν Overlay) : Prop where
  ending : second.ending = first.ending
  frames : ∃ w rs, Abreast w rs f g first.toFrame second.toFrame

variable {f g : Frame Overlay}

theorem abreastTaking {w : Changes} {after twin : Overlay} {m n : Meter} (took : BothTook w f.host g.host after twin)
    (meter : n = m) : Abreast w [] f g { f with host := after, meter := m } { g with host := twin, meter := n } :=
  ⟨took, meter, (List.append_nil _).symm, (List.append_nil _).symm⟩

theorem abreastCharged (f g : Frame Overlay) (meter : Meter) :
    Abreast Changes.empty [] f g { f with meter } { g with meter } :=
  abreastTaking (bothTookNothing f.host g.host) rfl

theorem abreastStill (meter : g.meter = f.meter) : Abreast Changes.empty [] f g f g :=
  abreastTaking (bothTookNothing f.host g.host) meter

theorem abreastThen {w later : Changes} {rs ss : List Report} {middle between after twin : Frame Overlay}
    (earlier : Abreast w rs f g middle between) (next : Abreast later ss middle between after twin) :
    Abreast (w.merge later) (rs ++ ss) f g after twin where
  took := bothTookThen earlier.took next.took
  meter := next.meter
  first := by rw [next.first, earlier.first, List.append_assoc]
  second := by rw [next.second, earlier.second, List.append_assoc]

theorem abreastAlike {w : Changes} {rs : List Report} {after twin : Frame Overlay} (alike : f.Alike cells standing g)
    (abreast : Abreast w rs f g after twin) : after.Alike cells standing twin where
  meter := abreast.meter
  reports := by rw [abreast.second, abreast.first, alike.reports]
  host := bothTookAlike alike.host abreast.took

theorem recordAbreast {w : Changes} {rs : List Report} {after twin : Frame Overlay} (abreast : Abreast w rs f g after twin)
    (report : Report) : Abreast w (rs ++ [report]) f g (after.record report) (twin.record report) where
  took := abreast.took
  meter := abreast.meter
  first := by rw [record, abreast.first, List.append_assoc]
  second := by rw [record, abreast.second, List.append_assoc]

theorem recordIfAbreast {α : Type} {w : Changes} {after twin : Frame Overlay} (abreast : Abreast w [] f g after twin)
    (attempt : Option Attempt) (answer : Except Fault (Metered α)) :
    ∃ rs, Abreast w rs f g (after.recordIf attempt answer) (twin.recordIf attempt answer) := by
  cases attempt with
  | none => exact ⟨[], abreast⟩
  | some attempt =>
    cases answer with
    | ok value => exact ⟨_, recordAbreast abreast _⟩
    | error fault =>
      cases fault with
      | outOfGas => exact ⟨[], abreast⟩
      | failed message => exact ⟨_, recordAbreast abreast _⟩
      | internal message => exact ⟨_, recordAbreast abreast _⟩

theorem queryAbreast (alike : f.host.Alike cells standing g.host) (meter : g.meter = f.meter) {q : Query}
    (within : q.Within cells standing f.host.contract) :
    (g.query q).1 = (f.query q).1 ∧ ∃ rs, Abreast Changes.empty rs f g (f.query q).2 (g.query q).2 := by
  cases exhausted : f.meter.exhausted with
  | true =>
    rw [queryExhausted exhausted, queryExhausted (meter ▸ exhausted)]
    exact ⟨rfl, [], abreastStill meter⟩
  | false =>
    have asked : Host.query g.host g.meter q = Host.query f.host f.meter q := by
      rw [meter]
      exact Overlay.queryAlike alike f.meter within
    rw [querySpared exhausted, querySpared (meter ▸ exhausted), asked, meter]
    exact ⟨rfl, recordIfAbreast (abreastCharged f g _) _ _⟩

theorem updateAbreast (alike : f.host.Alike cells standing g.host) (meter : g.meter = f.meter) (u : Update) :
    (g.update u).1 = (f.update u).1 ∧ ∃ w rs, Abreast w rs f g (f.update u).2 (g.update u).2 := by
  cases exhausted : f.meter.exhausted with
  | true =>
    rw [updateExhausted exhausted, updateExhausted (meter ▸ exhausted)]
    exact ⟨rfl, _, [], abreastStill meter⟩
  | false =>
    obtain ⟨answers, meters, w, took⟩ := Overlay.updateBoth alike f.meter u
    rw [updateSpared exhausted, updateSpared (meter ▸ exhausted), meter]
    simp only [Host.update, answers, meters]
    exact ⟨trivial, w, recordIfAbreast (abreastTaking took rfl) _ _⟩

theorem stepAbreast (level other : Level ν Overlay) (settings : other.settings = level.settings)
    (deep : standing → other.depth = level.depth) (alike : f.Alike cells standing g) {op : Operation}
    (within : op.Within cells standing f.host.contract) :
    (g.step other op).1 = (f.step level op).1 ∧
      ∃ w rs, Abreast w rs f g (f.step level op).2.1 (g.step other op).2.1 := by
  cases op with
  | query q =>
    obtain ⟨answers, rs, abreast⟩ := queryAbreast alike.host alike.meter within
    exact ⟨answers, _, rs, abreast⟩
  | update u => exact updateAbreast alike.host alike.meter u
  | ask p =>
    refine ⟨?_, _, _, abreastStill alike.meter⟩
    cases p with
    | depth => exact deep within
    | settings => exact settings
    | meter => exact alike.meter
    | reports => exact alike.reports
    | debug => exact alike.host.debug
  | consumeGas gas =>
    simp only [step, consumeGas, alike.meter]
    exact ⟨trivial, _, [], abreastCharged f g _⟩
  | setGasLimit limit =>
    simp only [step, alike.meter]
    exact ⟨trivial, _, [], abreastCharged f g _⟩
  | commit | call c | deploy d => exact within.elim

/-! Callees in environments that are alike. -/

theorem closeBoth {o also : Overlay} {contract : Address} {amount : Amount} {w : Changes}
    {callee counterpart : Finished ν Overlay}
    (took : BothTook w (o.child contract amount) (also.child contract amount) callee.host counterpart.host)
    (results : counterpart.result = callee.result) :
    ∃ v, (v = Changes.empty ∨ v = callee.host.own.changes) ∧ close callee = (callee.result, o.absorb v, none) ∧
      close counterpart = (callee.result, also.absorb v, none) := by
  have holds : callee.host.own.changes = w := took.first ▸ o.childHolds contract amount w
  have alsoHolds : counterpart.host.own.changes = w := took.second ▸ also.childHolds contract amount w
  have nested : WritesOnly (o.child contract amount) callee.host := took.first ▸ writeWritesOnly _ _
  have alsoNested : WritesOnly (also.child contract amount) counterpart.host := took.second ▸ writeWritesOnly _ _
  rw [closeNested nested, closeNested alsoNested, results, alsoHolds, holds]
  cases callee.result with
  | error failure => exact ⟨Changes.empty, .inl rfl, by rw [absorbEmpty]; rfl, by rw [absorbEmpty]; rfl⟩
  | ok output => exact ⟨w, .inr rfl, rfl, rfl⟩

theorem enterAbreast (level other : Level ν Overlay) {run twinRun : Overlay → Activation → Finished ν Overlay}
    (deeper : level.enter = some run) (alsoDeeper : other.enter = some twinRun)
    (alike : f.host.Alike cells standing g.host) (meter : g.meter = f.meter)
    (attempt : Attempt) (amount : Amount) (activation : Activation)
    (below : ∀ child twin, activation.opened? f.host amount = some child → activation.opened? g.host amount = some twin →
      child.Alike cells standing twin → RanAbreast (ofLimit child activation.gasLimit) (ofLimit twin activation.gasLimit)
        (run child activation) (twinRun twin activation)) :
    (g.enter other attempt amount activation).1 = (f.enter level attempt amount activation).1 ∧
      ∃ v rs, (v = Changes.empty ∨ ∃ callee, level.callee? f.host amount activation = some callee ∧
          v = callee.host.own.changes) ∧
        Abreast v rs f g (f.enter level attempt amount activation).2.1 (g.enter other attempt amount activation).2.1 := by
  rcases openedBoth alike amount activation with
    ⟨fault, refused, alsoRefused⟩ | ⟨opening, child, twin, opened, alsoOpened, begun⟩
  · rw [enterUnderivable deeper refused, enterUnderivable alsoDeeper alsoRefused]
    exact ⟨rfl, _, _, .inl rfl, recordAbreast (abreastStill meter) _⟩
  · obtain ⟨endings, w, rs, abreast⟩ := below child twin opened alsoOpened
      (bothTookAlike (childAlike alike activation.contract amount) begun)
    have callee : level.callee? f.host amount activation = some (run child activation) := by
      simp only [Level.callee?, deeper, opened]
      rfl
    rw [enterOpened deeper opened, enterOpened alsoDeeper alsoOpened]
    generalize run child activation = first at *
    generalize twinRun twin activation = second at *
    have results : second.result = first.result := by rw [Finished.result, Finished.result, abreast.meter, endings]
    have reports : second.reports = first.reports := abreast.second.trans abreast.first.symm
    obtain ⟨v, source, closed, alsoClosed⟩ := closeBoth (bothTookThen begun abreast.took) results
    simp only [closed, alsoClosed, Finished.report, reports, abreast.meter]
    exact ⟨trivial, v, _, source.imp_right fun same => ⟨first, callee, same⟩,
      recordAbreast (abreastTaking ⟨rfl, rfl⟩ meter) _⟩

end Frame

/-! Invocations from frames whose environments are alike. Neither is admitted or both are, as the same activation. -/

namespace Invocation

variable {f g : Frame Overlay}

theorem addressedAbreast (alike : f.host.Alike cells standing g.host) (meter : g.meter = f.meter) (i : Invocation) :
    ∃ rs, Frame.Abreast Changes.empty rs f g (i.addressed f) (i.addressed g) := by
  cases i with
  | call c => exact ⟨[], Frame.abreastStill meter⟩
  | deploy d =>
    have within : (Query.addressOfCode d.code d.args d.nonce).Within cells standing f.host.contract := trivial
    exact (Frame.queryAbreast alike meter within).2

theorem admittedBoth {level other : Level ν Overlay} (settings : other.settings = level.settings)
    (alike : f.host.Alike cells standing g.host) (meter : g.meter = f.meter) (i : Invocation) :
    i.admitted? other g = i.admitted? level f := by
  cases i with
  | call c => simp only [admitted?, Host.code?, alike.code, meter, settings]
  | deploy d =>
    have within : (Query.addressOfCode d.code d.args d.nonce).Within cells standing f.host.contract := trivial
    obtain ⟨answers, rs, paid⟩ := Frame.queryAbreast alike meter within
    simp only [admitted?]
    cases asked : f.query (.addressOfCode d.code d.args d.nonce) with
    | mk answer here =>
      cases alsoAsked : g.query (.addressOfCode d.code d.args d.nonce) with
      | mk alsoAnswer there =>
        rw [asked, alsoAsked] at answers paid
        obtain rfl : alsoAnswer = answer := answers
        cases alsoAnswer with
        | error fault => rfl
        | ok derived => simp only [Host.codeHash?, (bothTookAlike alike paid.took).code, settings]

theorem unadmittedAbreast (level other : Level ν Overlay) (alike : f.host.Alike cells standing g.host)
    (meter : g.meter = f.meter) {i : Invocation} (absent : i.admitted? level f = none) :
    (i.perform other g).1 = (i.perform level f).1 ∧
      ∃ rs, Frame.Abreast Changes.empty rs f g (i.perform level f).2.1 (i.perform other g).2.1 := by
  cases i with
  | call c =>
    have found : Host.code? g.host c.contract = Host.code? f.host c.contract := by simp only [Host.code?, alike.code]
    simp only [perform, Frame.call, meter, found]
    split
    · exact ⟨rfl, _, Frame.abreastStill meter⟩
    · rename_i spared
      simp only [admitted?, if_neg spared, Option.map_eq_none_iff] at absent
      rw [absent]
      exact ⟨rfl, _, Frame.recordAbreast (Frame.abreastStill meter) _⟩
  | deploy d =>
    have within : (Query.addressOfCode d.code d.args d.nonce).Within cells standing f.host.contract := trivial
    obtain ⟨answers, rs, paid⟩ := Frame.queryAbreast alike meter within
    simp only [perform, Frame.deploy]
    simp only [admitted?] at absent
    cases asked : f.query (.addressOfCode d.code d.args d.nonce) with
    | mk answer here =>
      cases alsoAsked : g.query (.addressOfCode d.code d.args d.nonce) with
      | mk alsoAnswer there =>
        rw [asked] at absent
        rw [asked, alsoAsked] at answers paid
        obtain rfl : alsoAnswer = answer := answers
        cases alsoAnswer with
        | error fault => exact ⟨rfl, rs, paid⟩
        | ok derived =>
          obtain ⟨contract, gas⟩ := derived
          have hashes : Host.codeHash? there.host contract = Host.codeHash? here.host contract := by
            simp only [Host.codeHash?, (bothTookAlike alike paid.took).code]
          simp only [hashes]
          cases found : Host.codeHash? here.host contract with
          | some hash => exact ⟨rfl, _, Frame.recordAbreast paid _⟩
          | none => simp only [found, reduceCtorEq] at absent

end Invocation
end CallBoundary
