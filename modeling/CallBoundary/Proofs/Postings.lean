import CallBoundary.Proofs.RecordedRuns
/-! What stands behind the records of a run. A posting is an operation that was performed, together with
the frame that ran for it, if it is an invocation and there is one. Postings form a tree as records
do, with the same positions: behind each record stands one posting. -/
namespace CallBoundary

namespace Trace

variable {ν : Type}

structure Posting (ν : Type) where
  op : Operation
  answer : op.Answer
  frame : Option (Item ν)

def postingsAfter (latest : Option (Item ν)) : Trace ν → List (Posting ν)
  | [] => []
  | .performed op answer :: rest => ⟨op, answer, latest⟩ :: postingsAfter none rest
  | .ran depth activation items ending meter commitFault :: rest =>
    postingsAfter (some (.ran depth activation items ending meter commitFault)) rest
  | _ :: rest => postingsAfter none rest

def postings (t : Trace ν) : List (Posting ν) := postingsAfter none t

namespace Posting

def upshot? (p : Posting ν) : Option Upshot := p.frame.bind Item.upshot?

def items (p : Posting ν) : Trace ν := p.frame.elim [] Item.items

def records (p : Posting ν) : List Report := recordOperation p.upshot? p.op p.answer

def invocation? (p : Posting ν) : Option Invocation := Trace.invocation? p.op p.answer

end Posting

theorem postingsRecorded (t : Trace ν) (latest : Option (Item ν)) :
    recordsAfter (latest.bind Item.upshot?) t = (postingsAfter latest t).flatMap Posting.records := by
  induction t generalizing latest with
  | nil => rfl
  | cons item rest ih =>
    cases item with
    | performed op answer => exact congrArg (recordOperation (latest.bind Item.upshot?) op answer ++ ·) (ih none)
    | noted n => exact ih none
    | underivable contract fault => exact ih none
    | ran depth activation items ending meter commitFault =>
      exact ih (some (.ran depth activation items ending meter commitFault))

def entries (t : Trace ν) : List (Posting ν × Report) := t.postings.flatMap fun p => p.records.map (p, ·)

theorem entriesRecords (t : Trace ν) : t.entries.map Prod.snd = t.records := by
  have recorded : t.records = t.postings.flatMap Posting.records := postingsRecorded t none
  simp [entries, recorded, List.map_flatMap, Function.comp_def]

theorem entryRecorded {t : Trace ν} {entry : Posting ν × Report} (member : entry ∈ t.entries) :
    entry.1 ∈ t.postings ∧ entry.2 ∈ entry.1.records := by
  obtain ⟨p, posted, listed⟩ := List.mem_flatMap.mp member
  obtain ⟨r, recorded, rfl⟩ := List.mem_map.mp listed
  exact ⟨posted, recorded⟩

namespace Posting

def descend? (p : Posting ν) : List Nat → Option (Posting ν)
  | [] => some p
  | step :: rest => p.items.entries[step]?.bind fun entry => entry.1.descend? rest

theorem recordsSubs {p : Posting ν} {r : Report} (recorded : r ∈ p.records) :
    r.subs = p.items.records ∨ r.subs = [] := by
  rcases recordedCases recorded with ⟨i, o, -, rfl⟩ | ⟨leaf, -⟩
  · obtain ⟨op, answer, frame⟩ := p
    cases frame with
    | none => exact .inr (invocationSubs i none o)
    | some item =>
      cases item with
      | ran depth activation items ending meter commitFault => exact .inl (invocationSubs i _ o)
      | noted n => exact .inr (invocationSubs i none o)
      | performed op answer => exact .inr (invocationSubs i none o)
      | underivable contract fault => exact .inr (invocationSubs i none o)
  · exact .inr leaf

theorem descendRecorded {p : Posting ν} {r node : Report} {path : List Nat} (recorded : r ∈ p.records)
    (found : r.descend? path = some node) : ∃ q, p.descend? path = some q ∧ node ∈ q.records := by
  induction path generalizing p r with
  | nil =>
    cases found
    exact ⟨p, rfl, recorded⟩
  | cons step rest ih =>
    obtain ⟨sub, taken, deeper⟩ := Report.descendStep.mp found
    rcases recordsSubs recorded with below | leaf
    · rw [below, ← entriesRecords, List.getElem?_map] at taken
      obtain ⟨entry, listed, rfl⟩ := Option.map_eq_some_iff.mp taken
      obtain ⟨q, reached, noted⟩ := ih (entryRecorded (List.mem_of_getElem? listed)).2 deeper
      refine ⟨q, ?_, noted⟩
      rw [descend?, listed]
      exact reached
    · rw [leaf] at taken
      cases taken

end Posting

inductive Posted (p : Posting ν) : List (Posting ν) → Prop
  | own {all : List (Posting ν)} (member : p ∈ all) : Posted p all
  | inside {all : List (Posting ν)} {q : Posting ν} (member : q ∈ all) (deeper : Posted p q.items.postings) :
    Posted p all

variable {p q : Posting ν}

theorem unposted : ¬ Posted p [] := by
  intro posted
  cases posted with
  | own member => cases member
  | inside member deeper => cases member

theorem postedCons {later : List (Posting ν)} (posted : Posted p (q :: later)) :
    p = q ∨ Posted p q.items.postings ∨ Posted p later := by
  cases posted with
  | own member =>
    rcases List.mem_cons.mp member with same | rest
    · exact .inl same
    · exact .inr (.inr (.own rest))
  | inside member deeper =>
    rcases List.mem_cons.mp member with rfl | rest
    · exact .inr (.inl deeper)
    · exact .inr (.inr (.inside rest deeper))

theorem postedOfDescend {path : List Nat} (reached : p.descend? path = some q) : Posted q [p] := by
  have found : q = p ∨ Posted q p.items.postings := by
    induction path generalizing p with
    | nil => exact .inl (Option.some.inj reached).symm
    | cons step rest ih =>
      obtain ⟨entry, listed, deeper⟩ := Option.bind_eq_some_iff.mp reached
      have member := (entryRecorded (List.mem_of_getElem? listed)).1
      rcases ih deeper with rfl | below
      · exact .inr (.own member)
      · exact .inr (.inside member below)
  rcases found with rfl | below
  · exact .own (List.mem_singleton_self q)
  · exact .inside (List.mem_singleton_self p) below

end Trace

open Trace

variable {ν : Type}

def Invocation.posting (answer : Except Fault Outcome) (frame : Option (Item ν)) : Invocation → Posting ν
  | call c => ⟨.call c, answer, frame⟩
  | deploy d => ⟨.deploy d, answer, frame⟩

theorem Invocation.postingsPerformed (i : Invocation) (answer : Except Fault Outcome) (frame : Option (Item ν))
    (t : Trace ν) : postingsAfter frame (i.performed answer :: t) = i.posting answer frame :: t.postings := by
  cases i <;> rfl

theorem Invocation.postingItems (i : Invocation) (answer : Except Fault Outcome) (frame : Option (Item ν)) :
    (i.posting answer frame).items = frame.elim [] Item.items := by
  cases i <;> rfl

end CallBoundary
