import CallBoundary.Proofs.Lookalikes
import CallBoundary.Proofs.TwinRuns
/-! Empty values. A cell that holds an empty value reads like one that holds none, so nothing in a run depends on whether an
empty value was stored or the value removed, where neither costs anything. What is kept is not the same: an entry in the one
case, a mark of the removal in the other. The two are told apart no more once empty values are taken out. -/
namespace CallBoundary

namespace View

def blanked (v : View) : View := { v with storage := fun cell => (v.storage cell).filter (· ≠ []) }

end View

namespace Changes

def blanked (c : Changes) : Changes := { c with storage := c.storage.map fun _ value => value.filter (· ≠ []) }

theorem emptyBlanked : empty.blanked = empty := by
  have cells : (∅ : Std.ExtTreeMap Cell (Option Bytes)).map (fun _ value => value.filter (· ≠ [])) = ∅ := by
    apply Std.ExtTreeMap.ext_getElem?
    intro cell
    simp
  simp only [blanked, empty, cells]

theorem mergeBlanked (c later : Changes) : (c.merge later).blanked = c.blanked.merge later.blanked := by
  have cells : (c.storage ∪ later.storage).map (fun _ value => value.filter (· ≠ [])) =
      c.storage.map (fun _ value => value.filter (· ≠ [])) ∪
        later.storage.map (fun _ value => value.filter (· ≠ [])) := by
    apply Std.ExtTreeMap.ext_getElem?
    intro cell
    simp only [Std.ExtTreeMap.getElem?_map, Std.ExtTreeMap.getElem?_union]
    cases later.storage[cell]? <;> simp
  simp only [blanked, merge, cells]

theorem storeEmptyBlanked (c : Changes) (cell : Cell) :
    (c.setStorage cell (some [])).blanked = (c.setStorage cell none).blanked := by
  have cells : (c.storage.insert cell (some [])).map (fun _ value => value.filter (· ≠ [])) =
      (c.storage.insert cell none).map fun _ value => value.filter (· ≠ []) := by
    apply Std.ExtTreeMap.ext_getElem?
    intro other
    simp only [Std.ExtTreeMap.getElem?_map, Std.ExtTreeMap.getElem?_insert]
    split <;> rfl
  simp only [blanked, setStorage, cells]

theorem ontoBlanked (c : Changes) (v : View) : c.blanked.onto v.blanked = (c.onto v).blanked := by
  apply View.ext
  · funext cell
    simp only [onto, blanked, View.blanked, Std.ExtTreeMap.getElem?_map]
    cases c.storage[cell]? <;> rfl
  · rfl
  · rfl

end Changes

namespace Store

def blanked (s : Store) : Store := { s with storage := s.storage.filter fun _ value => value ≠ [] }

theorem blankedView (s : Store) : s.blanked.view = s.view.blanked := by
  apply View.ext
  · funext cell
    simp only [view, blanked, View.blanked, Std.ExtTreeMap.getElem?_filter]
    cases s.storage[cell]? <;> simp [Option.filter]
  · rfl
  · rfl

theorem absorbBlanked (s : Store) (c : Changes) : (s.absorb c).blanked = s.blanked.absorb c.blanked := by
  have cells : (s.absorb c).blanked.storage = (s.blanked.absorb c.blanked).storage := by
    apply Std.ExtTreeMap.ext_getElem?
    intro cell
    simp only [absorb, blanked, Changes.blanked, Std.ExtTreeMap.getElem?_filter, Std.ExtTreeMap.getElem?_filterMap,
      Std.ExtTreeMap.getElem?_union, Std.ExtTreeMap.getElem?_map]
    cases c.storage[cell]? with
    | some written => cases written <;> simp
    | none =>
      cases s.storage[cell]? with
      | none => simp
      | some value => by_cases empty : value = [] <;> simp [Option.filter, empty]
  simp only [absorb, blanked, Changes.blanked] at cells ⊢
  rw [cells]

end Store

def Layer.blanked (layer : Layer) : Layer := { layer with changes := layer.changes.blanked }

namespace Overlay

def blanked (o : Overlay) : Overlay := ⟨o.own.blanked, o.below.map Layer.blanked, o.store.blanked⟩

theorem blankedView (o : Overlay) : o.blanked.view = o.view.blanked := by
  have through (layers : List Layer) (v : View) :
      viewThrough (layers.map Layer.blanked) v.blanked = (viewThrough layers v).blanked := by
    induction layers with
    | nil => rfl
    | cons layer rest ih =>
      simp only [List.map_cons, viewThrough, ih]
      exact layer.changes.ontoBlanked _
  have layers : o.blanked.own :: o.blanked.below = (o.own :: o.below).map Layer.blanked := rfl
  rw [view, view, layers, show o.blanked.store.view = o.store.view.blanked from o.store.blankedView]
  exact through _ _

/-! What is done to a chain is done to the blanked one in the same way. -/

theorem absorbBlanked (o : Overlay) (w : Changes) : (o.absorb w).blanked = o.blanked.absorb w.blanked := by
  have own : { o.own with changes := o.own.changes.merge w }.blanked =
      { o.own.blanked with changes := o.own.blanked.changes.merge w.blanked } := by
    simp only [Layer.blanked, Changes.mergeBlanked]
  simp only [blanked, absorb, write, own]

theorem childBlanked (o : Overlay) (contract : Address) (amount : Amount) :
    (o.child contract amount).blanked = o.blanked.child contract amount := by
  simp only [blanked, child, nest, Layer.blanked, Changes.emptyBlanked, List.map_cons]
  rfl

theorem releaseBlanked (o : Overlay) : o.release.blanked = o.blanked.release := by
  obtain ⟨own, below, store⟩ := o
  cases below <;> rfl

theorem clearBlanked (o : Overlay) : o.clear.blanked = o.blanked.clear := by
  simp only [blanked, clear, write, Layer.blanked, Changes.emptyBlanked]

theorem commitBlanked (o : Overlay) : o.commit.blanked = o.blanked.commit := by
  obtain ⟨own, below, store⟩ := o
  cases below with
  | nil =>
    simp only [blanked, commit, write, List.map_nil, Layer.blanked, Changes.emptyBlanked, Store.absorbBlanked]
  | cons layer rest =>
    simp only [blanked, commit, write, List.map_cons, Layer.blanked, Changes.emptyBlanked, Changes.mergeBlanked]

/-! Where nothing costs anything. -/

def tariffs (o : Overlay) : List Tariff := (o.own :: o.below).map Layer.tariff

def Free (o : Overlay) : Prop := ∀ tariff ∈ o.tariffs, tariff = Tariff.free

theorem ownFree {o : Overlay} (free : o.Free) : o.own.tariff = Tariff.free := free _ (List.mem_cons_self ..)

theorem childFree {o : Overlay} (free : o.Free) (contract : Address) (amount : Amount) : (o.child contract amount).Free := by
  intro tariff charged
  rcases List.mem_cons.mp charged with rfl | below
  · exact (ownFree free :)
  · exact free tariff below

theorem releaseFree {o : Overlay} (free : o.Free) : o.release.Free := by
  obtain ⟨own, below, store⟩ := o
  cases below with
  | nil => exact free
  | cons layer rest => exact fun tariff charged => free tariff (List.mem_cons_of_mem _ charged)

theorem writesOnlyFree {o after : Overlay} (free : o.Free) (writes : WritesOnly o after) : after.Free := by
  obtain ⟨changes, rfl⟩ := writes
  exact free

theorem commitFree {o : Overlay} (free : o.Free) : o.commit.Free := by
  obtain ⟨own, below, store⟩ := o
  cases below with
  | nil => exact free
  | cons layer rest => exact free

structure SameButEmpty (o also : Overlay) : Prop where
  blanked : also.blanked = o.blanked
  free : o.Free
  alsoFree : also.Free

variable {o also : Overlay}

theorem sameRefl (free : o.Free) : o.SameButEmpty o := ⟨rfl, free, free⟩

theorem sameView (same : o.SameButEmpty also) : also.view.blanked = o.view.blanked := by
  rw [← blankedView, ← blankedView, same.blanked]

-- Alike in all but cells, of which none is asked to agree: one may hold an empty value where the other holds nothing.
theorem sameAlike (same : o.SameButEmpty also) : o.Alike (fun _ => False) True also where
  contract := (congrArg Overlay.contract same.blanked :)
  payAmount := (congrArg (fun o => o.own.context.payAmount) same.blanked :)
  tariff := (congrArg (fun o => o.own.tariff) same.blanked :)
  debug := (congrArg (fun o => o.own.debug) same.blanked :)
  identities := (congrArg (fun o => o.store.identities) same.blanked :)
  chain := (congrArg (fun o => o.store.chain) same.blanked :)
  storage _ read := read.elim
  balance := (congrArg View.balance (sameView same) :)
  code := (congrArg View.code (sameView same) :)
  caller _ := (congrArg (fun o => o.own.context.caller) same.blanked :)
  originalCaller _ := (congrArg (fun o => o.own.context.originalCaller) same.blanked :)

theorem sameQuery (same : o.SameButEmpty also) (m : Meter) (q : Query) : also.query m q = o.query m q := by
  have alike := sameAlike same
  have value (contract : Address) (key : Bytes) : also.valueAt contract key = o.valueAt contract key :=
    congrFun (congrArg View.storage (sameView same)) ⟨contract, key⟩
  have read {q : Query} (charges : also.queryCharges q = o.queryCharges q) (answers : also.answer q = o.answer q) :
      also.query m q = o.query m q := by
    unfold query
    rw [charges, answers]
  cases q with
  | storage key =>
    apply read
    · simp only [queryCharges, alike.tariff, alike.contract, value]
    · simp only [answer, alike.contract, value]
  | storageOf contract key =>
    apply read
    · simp only [queryCharges, alike.tariff, value]
    · simp only [answer, value]
  | _ => exact queryAlike alike m trivial

theorem sameTook {w : Changes} {after twin : Overlay} (same : o.SameButEmpty also) (took : BothTook w o also after twin) :
    after.SameButEmpty twin := by
  obtain ⟨rfl, rfl⟩ := took
  exact ⟨by rw [absorbBlanked, absorbBlanked, same.blanked], same.free, same.alsoFree⟩

end Overlay

def Update.vacated : Update → Update
  | .setStorage key value => if value = [] then .removeStorage key else .setStorage key value
  | u => u

namespace Overlay

variable {o also : Overlay}

theorem storeEmptySame (free : o.Free) (m : Meter) (key : Bytes) :
    let stored := o.update m (.setStorage key [])
    let removed := o.update m (.removeStorage key)
    removed.1 = stored.1 ∧ removed.2.1 = stored.2.1 ∧ stored.2.2.SameButEmpty removed.2.2 := by
  have tariff := ownFree free
  have written : o.updateCharge (.setStorage key []) = 0 := by
    simp only [updateCharge, tariff]
    exact UInt64.toNat.inj (by simp [Tariff.writeCost, Tariff.free, Gas.timesToNat])
  have removed : o.updateCharge (.removeStorage key) = 0 := by
    rw [updateCharge, tariff]
    rfl
  simp only [update, written, removed, updateFault?]
  cases keyFault? key with
  | some fault => exact ⟨rfl, rfl, sameRefl free⟩
  | none =>
    dsimp only
    split
    · exact ⟨rfl, rfl, sameRefl free⟩
    · -- The one keeps an entry with an empty value, the other the mark of a removal.
      refine ⟨rfl, rfl, ?_, free, free⟩
      simp only [apply, blanked, write, Layer.blanked, Changes.storeEmptyBlanked]

theorem vacatedSame (free : o.Free) (m : Meter) (u : Update) :
    (o.update m u.vacated).1 = (o.update m u).1 ∧ (o.update m u.vacated).2.1 = (o.update m u).2.1 ∧
      (o.update m u).2.2.SameButEmpty (o.update m u.vacated).2.2 := by
  have unchanged : (o.update m u).2.2.SameButEmpty (o.update m u).2.2 :=
    sameRefl (writesOnlyFree free (o.updateWritesOnly m u))
  cases u with
  | setStorage key value =>
    by_cases empty : value = []
    · subst empty
      exact storeEmptySame free m key
    · rw [show (Update.setStorage key value).vacated = .setStorage key value from if_neg empty]
      exact ⟨rfl, rfl, unchanged⟩
  | removeStorage _ | send _ _ | subBalance _ | addBalance _ _ | emit _ _ => exact ⟨rfl, rfl, unchanged⟩

theorem sameUpdate (same : o.SameButEmpty also) (m : Meter) {u v : Update} (alike : v.vacated = u.vacated) :
    (also.update m v).1 = (o.update m u).1 ∧ (also.update m v).2.1 = (o.update m u).2.1 ∧
      (o.update m u).2.2.SameButEmpty (also.update m v).2.2 := by
  obtain ⟨answers, meters, first⟩ := vacatedSame same.free m u
  obtain ⟨alsoAnswers, alsoMeters, last⟩ := vacatedSame same.alsoFree m v
  obtain ⟨bothAnswer, bothMeter, w, took⟩ := updateBoth (sameAlike same) m u.vacated
  rw [alike] at alsoAnswers alsoMeters last
  refine ⟨?_, ?_, ?_⟩
  · rw [← alsoAnswers, bothAnswer, answers]
  · rw [← alsoMeters, bothMeter, meters]
  · have middle := sameTook same took
    exact ⟨last.blanked.symm.trans (middle.blanked.trans first.blanked), first.free, last.free⟩

theorem vacatedReported (u : Update) : Frame.attemptOfUpdate u.vacated = Frame.attemptOfUpdate u := by
  cases u with
  | setStorage key value =>
    simp only [Update.vacated]
    split <;> rfl
  | removeStorage _ | send _ _ | subBalance _ | addBalance _ _ | emit _ _ => rfl

theorem simulation : Host.Simulation Overlay.SameButEmpty Update.vacated where
  reported {u v} alike := by rw [← vacatedReported v, alike, vacatedReported u]
  query same := sameQuery same
  update same m _ _ alike := sameUpdate same m alike
  derive := by
    intro o also same contract amount deployment
    rcases deriveBoth (sameAlike same) contract amount deployment with
      ⟨fault, refused, alsoRefused⟩ | ⟨w, fresh, twin, opened, alsoOpened, took⟩
    · simp only [Host.derive, refused, alsoRefused]
      exact ⟨trivial, same⟩
    · simp only [Host.derive, opened, alsoOpened]
      refine ⟨trivial, sameTook ⟨?_, childFree same.free _ _, childFree same.alsoFree _ _⟩ took⟩
      rw [childBlanked, childBlanked, same.blanked]
  release := by
    intro o also same
    refine ⟨?_, releaseFree same.free, releaseFree same.alsoFree⟩
    simp only [Host.release, releaseBlanked, same.blanked]
  code same address := by simp only [Host.code?, (sameAlike same).code]
  codeHash same address := by simp only [Host.codeHash?, (sameAlike same).code]
  register same code := by
    obtain ⟨w, took⟩ := registerBoth (sameAlike same) code
    exact sameTook same took
  commit := by
    intro o also same
    refine ⟨rfl, ?_, commitFree same.free, commitFree same.alsoFree⟩
    simp only [Host.commit, commitBlanked, same.blanked]
  clear := by
    intro o also same
    refine ⟨?_, same.free, same.alsoFree⟩
    simp only [Host.clear, clearBlanked, same.blanked]
  isDebug same := (sameAlike same).debug

end Overlay

/-! Programs that remove where others store nothing. -/

namespace Program

variable {ν α : Type}

-- The second does what the first does, but that it may remove values where the first stores empty ones.
inductive Removing : Program ν α → Program ν α → Prop
  | ret (value : α) : Removing (.ret value) (.ret value)
  | raise (fault : Fault) : Removing (.raise fault) (.raise fault)
  | panic (text : Option String) : Removing (.panic text) (.panic text)
  | note (n : ν) {next other : Program ν α} (rest : Removing next other) : Removing (.note n next) (.note n other)
  | perform (op : Operation) {next other : op.Answer → Program ν α}
      (rest : ∀ answer, Removing (next answer) (other answer)) : Removing (.perform op next) (.perform op other)
  | replaced (key : Bytes) {next other : Except Fault (Metered Unit) → Program ν α}
      (rest : ∀ answer, Removing (next answer) (other answer)) :
      Removing (.perform (.update (.setStorage key [])) next) (.perform (.update (.removeStorage key)) other)

theorem removingRefl (p : Program ν α) : p.Removing p := by
  induction p with
  | ret value => exact .ret value
  | raise fault => exact .raise fault
  | panic text => exact .panic text
  | note n next ih => exact .note n ih
  | perform op next ih => exact .perform op ih

theorem removingTwin {p q : Program ν α} (removing : p.Removing q) : p.Twin Update.vacated q := by
  induction removing with
  | ret value => exact .ret value
  | raise fault => exact .raise fault
  | panic text => exact .panic text
  | note n rest ih => exact .note n ih
  | perform op rest ih => exact .perform op ih
  | replaced key rest ih =>
    have alike : (Update.removeStorage key).vacated = (Update.setStorage key []).vacated := rfl
    exact .exchanged alike ih

end Program

namespace Launch

variable {ν : Type}

/-- Where nothing costs anything, a run in which empty values are stored and one in which some of them, in whatever
frames, are removed instead come to the same outcome, and every other operation in every frame is answered in the same
way. What the two leave in the store, once the root is committed, is the same but for cells that hold an empty value. -/
theorem emptyValuesCountAsNone (b c : Boundary ν) (settings : c.settings = b.settings)
    (replaced : ∀ activation, (b.interpreter activation).Removing (c.interpreter activation)) (own : Settings)
    (free : own.tariff = Tariff.free) (context : Context) (store : Store) (l : Launch) :
    let storing := l.run b (Overlay.root own context store)
    let removing := l.run c (Overlay.root own context store)
    removing.1 = storing.1 ∧ Trace.formed Update.vacated removing.2.2 = Trace.formed Update.vacated storing.2.2 ∧
      removing.2.1.commit.store.blanked = storing.2.1.commit.store.blanked := by
  intro storing removing
  have rootFree : (Overlay.root own context store).Free := fun tariff charged => by
    rw [List.mem_singleton.mp charged]
    exact free
  obtain ⟨outcomes, hosts, traces⟩ := l.runTwin Overlay.simulation settings
    (fun activation => Program.removingTwin (replaced activation)) (Overlay.sameRefl rootFree)
  have committed : removing.2.1.commit.blanked = storing.2.1.commit.blanked := by
    rw [Overlay.commitBlanked, Overlay.commitBlanked, hosts.blanked]
  exact ⟨outcomes, traces, congrArg Overlay.store committed⟩

def wiping (u : Update) : Boundary Unit where
  settings := Settings.standard
  interpreter a :=
    match a.entry with
    | .method "wipe" => do
      let _ ← Program.update u
      pure none
    | _ => do
      let _ ← Program.run (.call ⟨FixedBytes.zero, "wipe", [], Amount.zero, [], 0⟩)
      let held ← Program.query (.storage [1])
      pure held.value

def wiped : Store :=
  { code := (∅ : Std.ExtTreeMap Address Bytes).insert FixedBytes.zero [1]
    storage := (∅ : Std.ExtTreeMap Cell Bytes).insert ⟨FixedBytes.zero, [1]⟩ [5] }

theorem wipedEitherWay :
    let own : Settings := { Settings.standard with tariff := Tariff.free }
    let root := Overlay.root own ⟨FixedBytes.zero, FixedBytes.zero, FixedBytes.zero, Amount.zero⟩ wiped
    let launch : Launch := .execute FixedBytes.zero "check" [] 0
    let storing := launch.run (wiping (.setStorage [1] [])) root
    let removing := launch.run (wiping (.removeStorage [1])) root
    (∀ activation, ((wiping (.setStorage [1] [])).interpreter activation).Removing
        ((wiping (.removeStorage [1])).interpreter activation)) ∧
      removing.1 = storing.1 ∧ removing.1.isSuccess = true ∧
      removing.2.1.commit.store.blanked = storing.2.1.commit.store.blanked ∧
      storing.2.1.commit.store.storage.size = 1 ∧ removing.2.1.commit.store.storage.size = 0 := by
  intro own root launch storing removing
  have replaced : ∀ activation, ((wiping (.setStorage [1] [])).interpreter activation).Removing
      ((wiping (.removeStorage [1])).interpreter activation) := by
    intro activation
    simp only [wiping]
    split
    · exact .replaced [1] fun answer => Program.removingRefl _
    · exact Program.removingRefl _
  obtain ⟨outcomes, -, stores⟩ := emptyValuesCountAsNone (wiping (.setStorage [1] [])) (wiping (.removeStorage [1])) rfl
    replaced own rfl ⟨FixedBytes.zero, FixedBytes.zero, FixedBytes.zero, Amount.zero⟩ wiped launch
  exact ⟨replaced, outcomes, by decide +kernel, stores, by decide +kernel, by decide +kernel⟩

end Launch
end CallBoundary
