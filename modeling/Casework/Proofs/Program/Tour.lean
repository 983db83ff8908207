/-
  Casework.Proofs.Program.Tour

  Walks through a stored program whose steps change the variables as they are carried out. What a
  deed does to the variables is left open: a walker has a state of its own and tells which variables
  there are in each state. A stretch of a walk that only goes forward is as long as the program at
  most, so a walk that is made of such stretches ends.
-/
import Casework.Definition.Validation
import Casework.Program.Walk

namespace Casework.Walk

/-- The kinds of steps that do something. -/
def deedKinds : List String :=
  ["assign_task", "send_email", "notification", "update_status", "wait_for_task"]

/-- Whether a step does something. -/
def isDeed (step : Json) : Bool := (step.field "type").isOneOf deedKinds

/-- What walks through a program: how a deed changes its state, and the variables of a state. -/
structure Walker (σ : Type) where
  act : Json → σ → σ
  vars : σ → Variables

/-- A walk that came to an end: the places of the steps that were visited, the place where it ended,
and the state then. -/
structure Trip (σ : Type) where
  visited : List Nat
  stop : Nat
  state : σ

namespace Walker

variable {σ : Type} (w : Walker σ)

/-- The state after a step. -/
def after (step : Json) (s : σ) : σ := if isDeed step then w.act step s else s

/-- Whoever does nothing has the same variables all the time. -/
def still (vars : Variables) : Walker Unit := ⟨fun _ s => s, fun _ => vars⟩

end Walker

variable {σ : Type}

/-- The walk from position `index` on, of at most `limit` steps. -/
def tour (w : Walker σ) (steps : List Json) (table : Table Nat) :
    Nat → Nat → σ → Except Fault (Trip σ)
  | 0, index, s => .ok ⟨[], index, s⟩
  | limit + 1, index, s =>
    match steps[index]? with
    | none => .ok ⟨[], index, s⟩
    | some step => do
      let s := w.after step s
      let following ← next step index table (w.vars s)
      let trip ← tour w steps table limit following s
      pure { trip with visited := index :: trip.visited }

-- ============================================================================
-- Stretches of a walk
-- ============================================================================

/-- From position `q` in state `s`, the walk visits some places, each behind the one before, and
comes to position `r` in state `s'`. -/
inductive Leads (w : Walker σ) (steps : List Json) (table : Table Nat) :
    Nat → σ → List Nat → Nat → σ → Prop where
  | stay (q : Nat) (s : σ) : Leads w steps table q s [] q s
  | go {q q' r : Nat} {s s' : σ} {visited : List Nat} {step : Json}
      (hstep : steps[q]? = some step)
      (hnext : next step q table (w.vars (w.after step s)) = .ok q')
      (hforward : q < q')
      (hrest : Leads w steps table q' (w.after step s) visited r s') :
      Leads w steps table q s (q :: visited) r s'

namespace Leads

variable {w : Walker σ} {steps : List Json} {table : Table Nat} {q r t : Nat} {s s' s'' : σ}
  {visited more : List Nat}

/-- Two stretches of a walk make one. -/
theorem trans (h : Leads w steps table q s visited r s')
    (h' : Leads w steps table r s' more t s'') :
    Leads w steps table q s (visited ++ more) t s'' := by
  induction h with
  | stay => exact h'
  | go hstep hnext hforward _ ih => exact .go hstep hnext hforward (ih h')

/-- A step that leads forward is a stretch of a walk. -/
theorem single {step : Json} (hstep : steps[q]? = some step)
    (hnext : next step q table (w.vars (w.after step s)) = .ok r) (hforward : q < r) :
    Leads w steps table q s [q] r (w.after step s) :=
  .go hstep hnext hforward (.stay _ _)

/-- A stretch has no more steps than places. -/
theorem add_length_le (h : Leads w steps table q s visited r s') : q + visited.length ≤ r := by
  induction h with
  | stay => exact Nat.le_refl _
  | go hstep hnext hforward hrest ih =>
    rw [List.length_cons]
    omega

/-- A walk takes a stretch, and goes on behind it. -/
theorem tour_eq (h : Leads w steps table q s visited r s') (limit : Nat) :
    tour w steps table (visited.length + limit) q s =
      (fun trip => { trip with visited := visited ++ trip.visited }) <$>
        tour w steps table limit r s' := by
  induction h with
  | stay q s =>
    rw [List.length_nil, Nat.zero_add]
    cases tour w steps table limit q s <;> rfl
  | @go q q' r s s' visited step hstep hnext hforward hrest ih =>
    rw [List.length_cons, Nat.add_right_comm, tour, hstep]
    simp only [hnext, bind, Except.bind, ih]
    cases tour w steps table limit r s' <;> rfl

/-- A stretch that leads out of the program is the whole walk. -/
theorem tour_eq_ok (h : Leads w steps table q s visited r s') (hend : steps.length ≤ r)
    {limit : Nat} (hlimit : visited.length ≤ limit) :
    tour w steps table limit q s = .ok ⟨visited, r, s'⟩ := by
  obtain ⟨spare, rfl⟩ := Nat.exists_eq_add_of_le hlimit
  rw [h.tour_eq spare]
  have hout : tour w steps table spare r s' = .ok ⟨[], r, s'⟩ := by
    cases spare with
    | zero => rfl
    | succ spare => rw [tour, List.getElem?_eq_none hend]
  rw [hout]
  simp [Functor.map, Except.map]

end Leads

end Casework.Walk
