import IronStock.Lib.Runs

/-!
# Event loops

A program of one thread that runs to completion: a task from outside comes only
when no job is left, and the jobs that tasks and jobs leave behind run one after
another in their order.
-/
namespace EventLoop

variable {σ Job Task : Type*}

/-- What a task and a job do to the state, and the jobs they leave behind. -/
structure Program (σ Job Task : Type*) where
  task : Task → σ → σ × List Job
  job : Job → σ → σ × List Job

structure Config (σ Job : Type*) where
  state : σ
  jobs : List Job

inductive Move (Task : Type*)
  | task (t : Task)
  | job

/-- A condition on the tasks, each judged in the state it comes to. -/
def Admits (C : σ → Task → Prop) (c : Config σ Job) : Move Task → Prop
  | .task t => c.jobs = [] → C c.state t
  | .job => True

instance (C : σ → Task → Prop) [∀ s t, Decidable (C s t)] (c : Config σ Job) (m : Move Task) :
    Decidable (Admits C c m) :=
  match m with
  | .task t => inferInstanceAs (Decidable (c.jobs = [] → C c.state t))
  | .job => .isTrue trivial

namespace Program

variable (P : Program σ Job Task)

def step (c : Config σ Job) : Move Task → Config σ Job
  | .task t =>
    match c.jobs with
    | [] => ⟨(P.task t c.state).1, (P.task t c.state).2⟩
    | _ :: _ => c
  | .job =>
    match c.jobs with
    | [] => c
    | j :: js => ⟨(P.job j c.state).1, js ++ (P.job j c.state).2⟩

/-- What a move can do. -/
theorem step_cases (c : Config σ Job) (m : Move Task) :
    (∃ t, m = .task t ∧ c.jobs = [] ∧
        P.step c m = ⟨(P.task t c.state).1, (P.task t c.state).2⟩) ∨
      (∃ j js, c.jobs = j :: js ∧
        P.step c m = ⟨(P.job j c.state).1, js ++ (P.job j c.state).2⟩) ∨
      P.step c m = c := by
  obtain ⟨s, jobs⟩ := c
  cases m with
  | task t =>
    cases jobs with
    | nil => exact .inl ⟨t, rfl, rfl, rfl⟩
    | cons j js => exact .inr (.inr rfl)
  | job =>
    cases jobs with
    | nil => exact .inr (.inr rfl)
    | cons j js => exact .inr (.inl ⟨j, js, rfl, rfl⟩)

/-- What the tasks and the jobs keep, every run keeps. -/
theorem along_of_keeps {I : σ → List Job → Prop} {C : σ → Task → Prop}
    (htask : ∀ s t, I s [] → C s t → I (P.task t s).1 (P.task t s).2)
    (hjob : ∀ s j js, I s (j :: js) → I (P.job j s).1 (js ++ (P.job j s).2))
    {c : Config σ Job} {ms : List (Move Task)} (hc : I c.state c.jobs)
    (hms : Runs.Every P.step (Admits C) c ms) :
    Runs.Along P.step (fun c => I c.state c.jobs) c ms := by
  refine Runs.along_of_every ?_ hc hms
  intro c m hI hC
  obtain ⟨t, rfl, hjobs, hstep⟩ | ⟨j, js, hjobs, hstep⟩ | hstep := P.step_cases c m
  · rw [hstep]
    rw [hjobs] at hI
    exact htask c.state t hI (hC hjobs)
  · rw [hstep]
    rw [hjobs] at hI
    exact hjob c.state j js hI
  · rw [hstep]
    exact hI

end Program

end EventLoop
