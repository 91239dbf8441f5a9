import CallBoundary.Proofs.Settlement
/-! What environments stand on, be it the store or another environment, and how it takes up sets of writes. One set after
another is taken up as both merged, and what is seen afterwards is what an environment that holds the set back
would show; a removal that leaves nothing behind in the store, and a mark in an environment, makes no difference. -/
namespace CallBoundary

inductive Ground where
  | store (s : Store)
  | environment (o : Overlay)

namespace Ground

def view : Ground → View
  | store s => s.view
  | environment o => o.view

def events : Ground → List Event
  | store s => s.events
  | environment o => o.events

def identities : Ground → Std.ExtTreeMap Address Identity
  | store s => s.identities
  | environment o => o.store.identities

def chain : Ground → Chain
  | store s => s.chain
  | environment o => o.store.chain

def absorb : Ground → Changes → Ground
  | store s, w => store (s.absorb w)
  | environment o, w => environment (o.absorb w)

def layered (g : Ground) (layer : Layer) : Overlay :=
  match g with
  | store s => ⟨layer, [], s⟩
  | environment o => ⟨layer, o.own :: o.below, o.store⟩

end Ground

def Overlay.ground (o : Overlay) : Ground :=
  match o.below with
  | [] => .store o.store
  | layer :: rest => .environment ⟨layer, rest, o.store⟩

namespace Store

theorem equalOfContents {s t : Store} (contents : Content.ofStore s = Content.ofStore t)
    (identities : s.identities = t.identities) (chain : s.chain = t.chain) (events : s.events = t.events) : s = t := by
  obtain ⟨_, _, _, _, _, _⟩ := s
  obtain ⟨_, _, _, _, _, _⟩ := t
  cases contents
  cases identities
  cases chain
  cases events
  rfl

theorem absorbMerge (s : Store) (a b : Changes) : (s.absorb a).absorb b = s.absorb (a.merge b) :=
  equalOfContents ((Content.ofStore s).underMerge a b).symm rfl rfl (List.append_assoc _ _ _)

theorem absorbEmpty (s : Store) : s.absorb Changes.empty = s :=
  equalOfContents (Content.ofStore s).underEmpty rfl rfl (List.append_nil _)

end Store

namespace Ground

variable (g : Ground) (a b : Changes)

theorem absorbMerge : (g.absorb a).absorb b = g.absorb (a.merge b) := by
  cases g with
  | store s => exact congrArg store (s.absorbMerge a b)
  | environment o => simp only [absorb, Overlay.absorb, Overlay.write, Changes.mergeAssoc]

theorem absorbEmpty : g.absorb Changes.empty = g := by
  cases g with
  | store s => exact congrArg store s.absorbEmpty
  | environment o => simp only [absorb, Overlay.absorb, Overlay.write, Changes.mergeEmpty]

theorem absorbView : (g.absorb a).view = a.onto g.view := by
  cases g with
  | store s => exact Content.viewUnder (Content.ofStore s) a
  | environment o => exact o.absorbView a

theorem layeredView (layer : Layer) : (g.layered layer).view = layer.changes.onto g.view := by
  cases g <;> rfl

theorem absorbEvents : (g.absorb a).events = g.events ++ a.events := by
  cases g with
  | store s => rfl
  | environment o => exact (List.append_assoc _ _ _).symm

theorem layeredEvents (layer : Layer) : (g.layered layer).events = g.events ++ layer.changes.events := by
  cases g <;> rfl

theorem absorbKeeps : (g.absorb a).identities = g.identities ∧ (g.absorb a).chain = g.chain := by
  cases g <;> exact ⟨rfl, rfl⟩

theorem layeredKeeps (layer : Layer) :
    (g.layered layer).own = layer ∧ (g.layered layer).store.identities = g.identities ∧
      (g.layered layer).store.chain = g.chain := by
  cases g <;> exact ⟨rfl, rfl, rfl⟩

theorem groundLayered (layer : Layer) : (g.layered layer).ground = g := by
  cases g <;> rfl

theorem groundCommit (o : Overlay) : o.commit.ground = o.ground.absorb o.own.changes := by
  obtain ⟨own, below, store⟩ := o
  cases below <;> rfl

theorem absorbAll (all : List Changes) : all.foldl absorb g = g.absorb (all.foldl Changes.merge Changes.empty) := by
  -- The sets merged so far go along, as what the ground has taken up already.
  have further (before : Changes) : all.foldl absorb (g.absorb before) = g.absorb (all.foldl Changes.merge before) := by
    induction all generalizing before with
    | nil => rfl
    | cons w rest ih =>
      rw [List.foldl_cons, List.foldl_cons, absorbMerge]
      exact ih (before.merge w)
  rw [← further, absorbEmpty]

/-- Merging is associative, and the empty set is neutral on both sides. A ground that takes up one set and then another is
left as by both merged, and so for any number of sets. What is read of it afterwards is what an environment
over it shows that holds back just these writes, and what that environment leaves behind when it commits. Events
stand in the order of the sets, those that were there before in front. -/
theorem changeSetsCompose (a b c : Changes) (g : Ground) (context : Context) (tariff : Tariff) (debug : Bool) :
    let buffering := g.layered { context, tariff, debug, changes := a }
    ((a.merge b).merge c = a.merge (b.merge c) ∧ a.merge Changes.empty = a ∧ Changes.empty.merge a = a) ∧
      ((g.absorb a).absorb b = g.absorb (a.merge b) ∧
        ∀ all : List Changes, all.foldl absorb g = g.absorb (all.foldl Changes.merge Changes.empty)) ∧
      ((g.absorb a).view = buffering.view ∧ (g.absorb a).identities = buffering.store.identities ∧
        (g.absorb a).chain = buffering.store.chain ∧ buffering.commit.ground = g.absorb a) ∧
      (a.merge b).events = a.events ++ b.events ∧ (g.absorb a).events = g.events ++ a.events ∧
        buffering.events = g.events ++ a.events := by
  intro buffering
  obtain ⟨own, identities, chain⟩ := g.layeredKeeps { context, tariff, debug, changes := a }
  refine ⟨⟨a.mergeAssoc b c, a.mergeEmpty, a.emptyMerge⟩, ⟨g.absorbMerge a b, g.absorbAll⟩, ⟨?_, ?_, ?_, ?_⟩,
    rfl, g.absorbEvents a, g.layeredEvents _⟩
  · rw [g.absorbView, g.layeredView]
  · rw [identities, (g.absorbKeeps a).1]
  · rw [chain, (g.absorbKeeps a).2]
  · rw [groundCommit, groundLayered, own]

end Ground
end CallBoundary
