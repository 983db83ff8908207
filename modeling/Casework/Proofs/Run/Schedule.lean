/-
  Casework.Proofs.Run.Schedule

  The outcome of a run does not depend on when messages come in. A schedule says which messages come
  in before the run and which at its waits. Runs on two schedules of the same messages make the same
  calls and end in the same way with the same variables, if no wait of either takes too long. What
  this needs of the messages is that none is at fault, and that decisions name their tasks and do
  not differ about one. It also needs that a run that comes to a wait is aware that the task is to
  be decided: a wait for a task that the run has not created yet takes a decision over if it is
  there, but does not wait for it. And the completed tasks have to have an order at both ends, or at
  none.
-/
import Casework.Proofs.Run.Seeded
import Casework.Proofs.Run.Together

namespace Casework

open Run

variable {τ : Type}

-- ============================================================================
-- Schedules
-- ============================================================================

/-- When messages come in: before a run, and in batches at its waits. -/
structure Schedule where
  before : List Signal
  batches : List (List Signal)

namespace Schedule

/-- All messages of a schedule. -/
def signals (a : Schedule) : List Signal := a.before ++ a.batches.flatten

/-- A run that has not begun, told what comes in before. -/
def begun (a : Schedule) (outside : τ) : RunState (Batched τ) :=
  { RunState.fresh (outside, a.batches) with inbox := (Inbox.empty.receiveAll a.before).1 }

/-- A run on a schedule, as it ends. -/
def ran (a : Schedule) (work : Call → τ → Except Failure Json × τ) (params : Fields) (outside : τ) :
    RunState (Batched τ) :=
  (outcome (run (World.inBatches work) params) (a.begun outside)).2

/-- At its beginning a run has told what the schedule says, and has the rest before it. -/
theorem told_begun {signals : List Signal} (hplain : Signal.Plain signals) {a : Schedule}
    (h : ∀ m ∈ a.signals, m ∈ signals) (outside : τ) : Told signals (a.begun outside) where
  decisions := (Inbox.drawn_empty.receiveAll hplain fun m hm =>
    h m (List.mem_append_left _ hm)).2
  batches batch hbatch m hm :=
    h m (List.mem_append_right _ (List.mem_flatten.2 ⟨batch, hbatch, hm⟩))

/-- Runs on two schedules of the same messages make the same calls, and end in the same phase with
the same variables. -/
theorem ran_eq_of_perm (work : Call → τ → Except Failure Json × τ) (params : Fields) (outside : τ)
    {a b : Schedule} (hsame : a.signals.Perm b.signals) (hplain : Signal.Plain a.signals)
    (haware : ∀ s started, outcome (setup params) (a.begun outside) = (.ok s, started) →
      ∀ place r, Comes (World.inBatches work) s started place r → s.Aware a.signals place r)
    (ha : (a.ran work params outside).OnTime) (hb : (b.ran work params outside).OnTime)
    (horder : (a.ran work params outside).inbox.Orderable ↔
      (b.ran work params outside).inbox.Orderable) :
    (a.ran work params outside).calls = (b.ran work params outside).calls ∧
      (a.ran work params outside).vars = (b.ran work params outside).vars ∧
      (a.ran work params outside).phase = (b.ran work params outside).phase := by
  have hbegun : Alike a.signals (a.begun outside) (b.begun outside) :=
    ⟨rfl, told_begun hplain (fun _ hm => hm) outside,
      told_begun hplain (fun _ hm => hsame.mem_iff.2 hm) outside⟩
  have hcore := core_run hplain hbegun haware ha hb horder
  refine ⟨?_, congrArg (fun c : RunState τ => c.vars) hcore,
    congrArg (fun c : RunState τ => c.phase) hcore⟩
  rw [← RunState.calls_core, ← RunState.calls_core]
  exact congrArg RunState.calls hcore

-- ============================================================================
-- Runs that ask for a decision
-- ============================================================================

/-- The message that the task is approved, which names it. -/
def approval : Signal :=
  .approvalSubmitted <| .obj [("taskId", .text "task"), ("outcome", .text "approved"),
    ("approvedBy", .text "ann")]

/-- The message that the task is completed. -/
def completion : Signal := .completed "task" "ann"

/-- The message that a task is completed whose id is no text. -/
def otherCompletion : Signal := .taskCompleted (.obj [("taskId", .nat 1)])

/-- The only decision among these messages is that the task is approved. -/
def ApprovesOnce (signals : List Signal) : Prop :=
  (∀ m ∈ signals, m = approval ∨ m.isDecision = false) ∧
    signals.Pairwise fun m n => m.isDecision = false ∨ n.isDecision = false

/-- A decision about the task names the task. -/
theorem ApprovesOnce.named {signals : List Signal} (h : ApprovesOnce signals) {payload : Json}
    (hpayload : .approvalSubmitted payload ∈ signals) :
    ∃ fields, payload.mappingOf = .ok fields ∧
      Inbox.givenKey (fields.value "taskId") = .ok (some (.text "task")) := by
  rcases h.1 _ hpayload with hsame | hnone
  · cases hsame
    exact ⟨_, rfl, rfl⟩
  · cases hnone

/-- No two of the signals decide the same task. -/
theorem ApprovesOnce.pairwise {signals : List Signal} (h : ApprovesOnce signals) :
    signals.Pairwise fun m n => ∀ task f g, m.Decides task f → ¬ n.Decides task g := by
  refine h.2.imp fun {m n} hone task f g hf hg => ?_
  rw [Signal.isDecision_of_decides hf, Signal.isDecision_of_decides hg] at hone
  exact absurd hone (by decide)

/-- If nothing but the decision and completions is sent, all signals are plain. -/
theorem ApprovesOnce.plain {signals : List Signal} (h : ApprovesOnce signals)
    (hknown : ∀ m ∈ signals, m = approval ∨ m = completion ∨ m = otherCompletion) :
    Signal.Plain signals where
  taken m hm inbox := by
    rcases hknown m hm with rfl | rfl | rfl
    · exact ⟨_, rfl⟩
    · exact ⟨_, Inbox.receive_completed inbox "task" "ann"⟩
    · exact ⟨_, rfl⟩
  named payload hpayload := by
    obtain ⟨fields, hfields, hnamed⟩ := h.named hpayload
    exact ⟨fields, _, hfields, hnamed⟩
  once := Signal.once_of_pairwise h.pairwise

/-- The task is completed and approved before the run. -/
def early : Schedule := ⟨[approval, completion], []⟩

/-- The run is told that the task is completed while it waits for it, and that it is approved while
it waits for the decision. -/
def late : Schedule := ⟨[], [[completion], [approval]]⟩

/-- What a run is given that asks for a decision. -/
def askingParams : Fields :=
  paramsOf (.texts ["open"]) ((Definition.decided "ask").map Instruction.toJson)

/-- A run of it, set up. -/
def askingSetup : Setup where
  base := ⟨.text "execution", .text "org"⟩
  contact := .null
  statuses := .texts ["open"]
  steps := (Definition.decided "ask").map Instruction.toJson
  table := Walk.places [] 0 (Definition.decided "ask")

theorem setup_asking (a : Schedule) :
    outcome (setup askingParams) (a.begun ()) = (.ok askingSetup, a.begun ()) := by
  with_unfolding_all exact rfl

theorem approvesOnce_early : ApprovesOnce early.signals :=
  ⟨by simp [early, signals, completion, Signal.completed, Signal.isDecision], by decide⟩

theorem plain_early : Signal.Plain early.signals :=
  approvesOnce_early.plain (by simp [early, signals])

/-- A run that asks for a decision is aware of it when it waits for the task. -/
theorem aware_early {place : Nat} {r : RunState (Batched Unit)}
    (h : Comes (World.inBatches silent.perform) askingSetup (early.begun ()) place r) :
    askingSetup.Aware early.signals place r := by
  obtain ⟨r1, r2, r3, r4, h0, h1, h2, h3, hknows, hvalue⟩ : ∃ r1 r2 r3 r4 : RunState (Batched Unit),
      Goes (World.inBatches silent.perform) askingSetup (0, early.begun ()) (1, r1) ∧
      Goes (World.inBatches silent.perform) askingSetup (1, r1) (2, r2) ∧
      Goes (World.inBatches silent.perform) askingSetup (2, r2) (3, r3) ∧
      Goes (World.inBatches silent.perform) askingSetup (3, r3) (4, r4) ∧
      KnowsApproval r2 (.text "task") ∧
      r2.vars.value (taskPath (.text "ask") "taskId") = .text "task" :=
    ⟨_, _, _, _, ⟨_, _, rfl, rfl, rfl, rfl⟩, ⟨_, _, rfl, rfl, rfl, rfl⟩, ⟨_, _, rfl, rfl, rfl, rfl⟩,
      ⟨_, _, rfl, rfl, rfl, rfl⟩, rfl, rfl⟩
  intro step creator key hsome htype hcreator hkey _
  obtain ⟨i, hi, rfl⟩ := Program.exists_getElem?_of_map hsome
  obtain ⟨other, days, hwait⟩ := exists_awaitTask_of_type htype
  -- The only wait is at the third place, and the run comes there once.
  rcases h0.eq_or_reaches h with heq | h
  · cases heq
    cases hi
    cases hwait
  rcases h1.eq_or_reaches h with heq | h
  · cases heq
    cases hi
    cases hwait
  rcases h2.eq_or_reaches h with heq | h
  · cases heq
    cases hi
    obtain rfl : creator = .text "ask" := by
      cases hcreator
      rfl
    rw [hvalue] at hkey
    cases hkey
    exact hknows
  rcases h3.eq_or_reaches h with heq | h
  · cases heq
    cases hi
    cases hwait
  rcases Relation.ReflTransGen.cases_head h with heq | ⟨_, ⟨_, _, hnone, -⟩, -⟩
  · cases heq
    cases hi
  · cases hnone

/-- It makes no difference whether a run is told before it begins or while it waits. -/
theorem ran_late_eq_early :
    (early.ran silent.perform askingParams ()).calls =
      (late.ran silent.perform askingParams ()).calls ∧
      (early.ran silent.perform askingParams ()).vars =
        (late.ran silent.perform askingParams ()).vars ∧
      (early.ran silent.perform askingParams ()).phase =
        (late.ran silent.perform askingParams ()).phase := by
  have hsame : early.signals.Perm late.signals := .swap _ _ _
  refine ran_eq_of_perm silent.perform askingParams () hsame plain_early
    (fun s started hsetup place r hcomes => ?_) (by decide +kernel) (by decide +kernel)
    (iff_of_true (by decide +kernel) (by decide +kernel))
  rw [setup_asking] at hsetup
  cases hsetup
  exact aware_early hcomes

-- ============================================================================
-- Runs that differ
-- ============================================================================

/-- Two schedules of the same messages, in which decisions name tasks that are to be decided, and no
task is decided twice. No wait of either run takes too long. -/
structure Comparable (a b : Schedule) (work : Call → τ → Except Failure Json × τ) (params : Fields)
    (outside : τ) : Prop where
  same : a.signals.Perm b.signals
  named : ∀ payload, .approvalSubmitted payload ∈ a.signals → ∃ fields task,
    payload.mappingOf = .ok fields ∧ Inbox.givenKey (fields.value "taskId") = .ok (some task) ∧
      KnowsApproval (a.ran work params outside) task ∧
        KnowsApproval (b.ran work params outside) task
  once : a.signals.Pairwise fun m n => ∀ task f g, m.Decides task f → ¬ n.Decides task g
  left : (a.ran work params outside).OnTime
  right : (b.ran work params outside).OnTime

/-- Two schedules of the same signals can be compared, if in both the decision is known and on
time. -/
theorem ApprovesOnce.comparable {a b : Schedule} (h : ApprovesOnce a.signals)
    (hsame : a.signals.Perm b.signals) {params : Fields}
    (ha : KnowsApproval (a.ran silent.perform params ()) (.text "task") ∧
      (a.ran silent.perform params ()).OnTime)
    (hb : KnowsApproval (b.ran silent.perform params ()) (.text "task") ∧
      (b.ran silent.perform params ()).OnTime) : Comparable a b silent.perform params () where
  same := hsame
  named payload hpayload := by
    obtain ⟨fields, hfields, hnamed⟩ := h.named hpayload
    exact ⟨fields, _, hfields, hnamed, ha.1, hb.1⟩
  once := h.pairwise
  left := ha.2
  right := hb.2

/-- The task is completed before the run, and approved while the run waits for the decision. -/
def approvedLater : Schedule := ⟨[completion], [[approval]]⟩

/-- What a run is given that waits for a task before it creates it: it finds the id of the task
among its first variables. -/
def guessingParams : Fields :=
  (paramsOf (.texts ["open"]) (.obj [("id", .text "guess"), ("type", .text "wait_for_task"),
    ("config", .obj [("taskStepId", .text "custom")])] ::
      (Definition.decided "ask").map Instruction.toJson)).put "variables"
    (.list [Variables.declaration "taskId" "Task" "task" []])

/-- A message comes in before the run, or it is left over. -/
def withStray (stray : Signal) : Schedule := ⟨[approval, completion, stray], []⟩

def leftOver (stray : Signal) : Schedule := ⟨[approval, completion], [[stray]]⟩

/-- The message that a task is completed whose id is no key. -/
def brokenCompletion : Signal := .taskCompleted (.obj [("taskId", .list [.nat 1])])

/-- The message comes in together with the decision, while the run waits for it. -/
def withDecision (stray : Signal) : Schedule := ⟨[completion], [[approval, stray]]⟩

/-- Comparable schedules can make a difference: if a run waits for a task that it has not created
yet, if the completed tasks have no order at one end, and if a message is at fault. -/
theorem not_ran_eq_of_comparable :
    (Comparable early approvedLater silent.perform guessingParams () ∧ Signal.Plain early.signals ∧
      ((early.ran silent.perform guessingParams ()).inbox.Orderable ∧
        (approvedLater.ran silent.perform guessingParams ()).inbox.Orderable) ∧
      (early.ran silent.perform guessingParams ()).vars ≠
        (approvedLater.ran silent.perform guessingParams ()).vars) ∧
    (Comparable (withStray otherCompletion)
      (leftOver otherCompletion) silent.perform askingParams () ∧
      Signal.Plain (withStray otherCompletion).signals ∧
      ((withStray otherCompletion).ran silent.perform askingParams ()).phase ≠
        ((leftOver otherCompletion).ran silent.perform askingParams ()).phase) ∧
    (Comparable (withDecision brokenCompletion)
      (leftOver brokenCompletion) silent.perform askingParams () ∧
      (((withDecision brokenCompletion).ran silent.perform askingParams ()).inbox.Orderable ∧
        ((leftOver brokenCompletion).ran silent.perform askingParams ()).inbox.Orderable) ∧
      ((withDecision brokenCompletion).ran silent.perform askingParams ()).phase ≠
        ((leftOver brokenCompletion).ran silent.perform askingParams ()).phase) := by
  -- Each of the schedules has one decision, and the same signals as the other one.
  have hstray : ApprovesOnce (withStray otherCompletion).signals :=
    ⟨by simp [withStray, signals, completion, otherCompletion, Signal.completed, Signal.isDecision],
      by decide⟩
  have hbroken : ApprovesOnce (withDecision brokenCompletion).signals :=
    ⟨by
      simp [withDecision, signals, completion, brokenCompletion, Signal.completed,
        Signal.isDecision],
      by decide⟩
  have hlater : early.signals.Perm approvedLater.signals := .swap _ _ _
  have hleft : (withStray otherCompletion).signals.Perm (leftOver otherCompletion).signals :=
    .refl _
  have hwith : (withDecision brokenCompletion).signals.Perm (leftOver brokenCompletion).signals :=
    .swap _ _ _
  refine ⟨⟨approvesOnce_early.comparable hlater (by decide +kernel)
    (by decide +kernel), plain_early,
      by decide +kernel, fun hvars => ?_⟩,
    ⟨hstray.comparable hleft (by decide +kernel) (by decide +kernel),
      hstray.plain (by simp [withStray, signals]), by decide +kernel⟩,
    ⟨hbroken.comparable hwith (by decide +kernel) (by decide +kernel), by decide +kernel,
      by decide +kernel⟩⟩
  -- In the first run the outcome is a variable; in the second it came after the step that guesses
  -- it.
  have hput : ((early.ran silent.perform guessingParams ()).vars.get? "custom.outcome").isSome =
      true := by
    decide +kernel
  have hnone : ((approvedLater.ran silent.perform guessingParams ()).vars.get?
    "custom.outcome").isSome =
      false := by
    decide +kernel
  rw [hvars, hnone] at hput
  exact Bool.false_ne_true hput

end Schedule
end Casework
