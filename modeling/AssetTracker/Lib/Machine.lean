import Mathlib.Data.List.Pairwise
import Mathlib.Order.Basic

/-! Machines driven by events: a step either fails (the program panics) or gives the next state and
what was observed on the way. Traces of observations are newest first. Independent of any program. -/
namespace AssetTracker.Lib

structure Machine (State Event Obs : Type*) where
  init : State
  step : State → Event → Option (State × List Obs)

/-- `Q before o` for each observation `o` of a trace and what was observed before it. -/
def Everywhere {Obs : Type*} (Q : List Obs → Obs → Prop) : List Obs → Prop
  | [] => True
  | o :: before => Q before o ∧ Everywhere Q before

theorem Everywhere.at_split {Obs : Type*} {Q : List Obs → Obs → Prop} {later before : List Obs}
    {o : Obs} (h : Everywhere Q (later ++ o :: before)) : Q before o := by
  induction later with
  | nil => exact h.1
  | cons _ later ih => exact ih h.2

theorem Everywhere.of_splits {Obs : Type*} {Q : List Obs → Obs → Prop} {trace : List Obs}
    (h : ∀ later before o, trace = later ++ o :: before → Q before o) : Everywhere Q trace := by
  induction trace with
  | nil => trivial
  | cons o trace ih =>
    refine ⟨h [] trace o rfl, ih ?_⟩
    intro later before o' htrace
    exact h (o :: later) before o' (congrArg (List.cons o) htrace)

theorem Everywhere.append {Obs : Type*} {Q : List Obs → Obs → Prop} {obs trace : List Obs}
    (h : Everywhere Q trace) (hobs : ∀ o ∈ obs, ∀ before, Q before o) :
    Everywhere Q (obs ++ trace) := by
  induction obs with
  | nil => exact h
  | cons o obs ih =>
    exact ⟨hobs o List.mem_cons_self _, ih fun o' hmem => hobs o' (List.mem_cons_of_mem o hmem)⟩

namespace Machine
variable {State Event Obs : Type*} (M : Machine State Event Obs)

/-- `M.Run trace s`: some sequence of events takes the machine to `s` and is observed as `trace`. -/
inductive Run : List Obs → State → Prop where
  | start : Run [] M.init
  | next {trace s e s' obs} : Run trace s → M.step s e = some (s', obs) → Run (obs ++ trace) s'

/-- Run the events in order, from a given state. -/
def exec : State → List Event → Option (State × List Obs)
  | s, [] => some (s, [])
  | s, e :: es => do
    let (s', obs) ← M.step s e
    let (s'', obs') ← exec s' es
    pure (s'', obs' ++ obs)

variable {M}

/-- What holds at the start and is kept by every step from a reachable state holds in every run. -/
theorem Run.invariant {P : List Obs → State → Prop} (hinit : P [] M.init)
    (hstep : ∀ {trace s e s' obs}, M.Run trace s → P trace s →
      M.step s e = some (s', obs) → P (obs ++ trace) s')
    {trace : List Obs} {s : State} (h : M.Run trace s) : P trace s := by
  induction h with
  | start => exact hinit
  | next hr hs ih => exact hstep hr ih hs

/-- The same for a condition on what is observed: what is kept by every step that meets it holds in
every run that does. -/
theorem Run.invariant_while {C : List Obs → Prop} {P : List Obs → State → Prop}
    (hleft : ∀ {obs trace}, C (obs ++ trace) → C obs)
    (hright : ∀ {obs trace}, C (obs ++ trace) → C trace) (hinit : P [] M.init)
    (hstep : ∀ {trace s e s' obs}, M.Run trace s → P trace s →
      M.step s e = some (s', obs) → C obs → P (obs ++ trace) s')
    {trace : List Obs} {s : State} (h : M.Run trace s) (hc : C trace) : P trace s := by
  induction h with
  | start => exact hinit
  | next hr hs ih => exact hstep hr (ih (hright hc)) hs (hleft hc)

theorem Run.exec {trace : List Obs} {s : State} (h : M.Run trace s) {es : List Event}
    {s' : State} {obs : List Obs} (he : M.exec s es = some (s', obs)) : M.Run (obs ++ trace) s' := by
  induction es generalizing s trace s' obs with
  | nil =>
    obtain ⟨rfl, rfl⟩ : s = s' ∧ [] = obs := by simpa [Machine.exec] using he
    exact h
  | cons e es ih =>
    simp only [Machine.exec, Option.bind_eq_bind, Option.bind_eq_some_iff, Option.pure_def,
      Option.some.injEq, Prod.mk.injEq, Prod.exists] at he
    obtain ⟨s₁, obs₁, h₁, s₂, obs₂, h₂, rfl, rfl⟩ := he
    simpa using ih (h.next h₁) h₂

theorem run_of_exec (es : List Event) {s : State} {obs : List Obs}
    (he : M.exec M.init es = some (s, obs)) : M.Run obs s := by
  simpa using Run.start.exec he

theorem exec_cons {s s₁ s₂ : State} {e : Event} {es : List Event} {obs obs' : List Obs}
    (h : M.step s e = some (s₁, obs)) (hes : M.exec s₁ es = some (s₂, obs')) :
    M.exec s (e :: es) = some (s₂, obs' ++ obs) := by
  simp [exec, h, hes]

/-- A machine whose steps are each done by another in some number of steps, to what the other observes
of them, has its runs among those of the other. -/
theorem Run.projected {State' Event' Obs' : Type*} {N : Machine State' Event' Obs'}
    {f : State → State'} {g : Obs → Option Obs'} (hinit : f M.init = N.init)
    (hstep : ∀ {s e s' obs}, M.step s e = some (s', obs) →
      ∃ es, N.exec (f s) es = some (f s', obs.filterMap g))
    {trace : List Obs} {s : State} (h : M.Run trace s) : N.Run (trace.filterMap g) (f s) := by
  induction h with
  | start =>
    rw [hinit]
    exact .start
  | next hr hs ih =>
    obtain ⟨es, hes⟩ := hstep hs
    rw [List.filterMap_append]
    exact ih.exec hes

theorem Run.simulated {State' Event' : Type*} {N : Machine State' Event' Obs} {f : State → State'}
    (hinit : f M.init = N.init)
    (hstep : ∀ {s e s' obs}, M.step s e = some (s', obs) →
      ∃ es, N.exec (f s) es = some (f s', obs))
    {trace : List Obs} {s : State} (h : M.Run trace s) : N.Run trace (f s) := by
  have hrun := h.projected (g := some) hinit fun hs => by simpa using hstep hs
  simpa using hrun

/-- Where every step observes at the time of a clock that never goes back, the times of a trace are in
order and past. -/
theorem Run.timed {Time : Type*} [Preorder Time] {clock : State → Time} {time : Obs → Option Time}
    (hstep : ∀ {trace s e s' obs}, M.Run trace s → M.step s e = some (s', obs) →
      clock s ≤ clock s' ∧ ∀ t ∈ obs.filterMap time, t = clock s)
    {trace : List Obs} {s : State} (h : M.Run trace s) :
    ((trace.filterMap time).Pairwise fun t t' => t' ≤ t) ∧ ∀ t ∈ trace.filterMap time, t ≤ clock s := by
  induction h with
  | start => exact ⟨.nil, by simp⟩
  | next hr hs ih =>
    obtain ⟨hclock, hobs⟩ := hstep hr hs
    rw [List.filterMap_append]
    refine ⟨List.pairwise_append.mpr ⟨?_, ih.1, ?_⟩, ?_⟩
    · exact List.pairwise_of_forall_mem_list fun t ht t' ht' => by
        rw [hobs t ht, hobs t' ht']
    · intro t ht t' ht'
      rw [hobs t ht]
      exact ih.2 t' ht'
    · intro t ht
      cases List.mem_append.mp ht with
      | inl hnew => exact (hobs t hnew).le.trans hclock
      | inr hold => exact (ih.2 t hold).trans hclock

theorem exec_single {s s' : State} {e : Event} {obs : List Obs} (h : M.step s e = some (s', obs)) :
    M.exec s [e] = some (s', obs) := by
  simp [exec, h]

theorem exec_append {s s₁ s₂ : State} {es es' : List Event} {obs obs' : List Obs}
    (h : M.exec s es = some (s₁, obs)) (h' : M.exec s₁ es' = some (s₂, obs')) :
    M.exec s (es ++ es') = some (s₂, obs' ++ obs) := by
  induction es generalizing s obs with
  | nil =>
    obtain ⟨rfl, rfl⟩ : s = s₁ ∧ [] = obs := by simpa [exec] using h
    simpa using h'
  | cons e es ih =>
    simp only [exec, Option.bind_eq_bind, Option.bind_eq_some_iff, Option.pure_def,
      Option.some.injEq, Prod.mk.injEq, Prod.exists] at h
    obtain ⟨s', obs₁, hstep, s'', obs₂, hes, rfl, rfl⟩ := h
    rw [← List.append_assoc]
    exact exec_cons hstep (ih hes)

theorem exec_invariant {P : State → Prop} {Q : Obs → Prop}
    (hstep : ∀ {trace s e s' obs}, M.Run trace s → P s → M.step s e = some (s', obs) →
      P s' ∧ ∀ o ∈ obs, Q o)
    {trace : List Obs} {s s' : State} {es : List Event} {obs : List Obs} (h : M.Run trace s)
    (hs : P s) (he : M.exec s es = some (s', obs)) : P s' ∧ ∀ o ∈ obs, Q o := by
  induction es generalizing s trace obs with
  | nil =>
    obtain ⟨rfl, rfl⟩ : s = s' ∧ [] = obs := by simpa [exec] using he
    exact ⟨hs, by simp⟩
  | cons e es ih =>
    simp only [exec, Option.bind_eq_bind, Option.bind_eq_some_iff, Option.pure_def,
      Option.some.injEq, Prod.mk.injEq, Prod.exists] at he
    obtain ⟨s₁, obs₁, h₁, s₂, obs₂, h₂, rfl, rfl⟩ := he
    obtain ⟨hs₁, hobs₁⟩ := hstep h hs h₁
    obtain ⟨hs₂, hobs₂⟩ := ih (h.next h₁) hs₁ h₂
    exact ⟨hs₂, fun o ho => (List.mem_append.mp ho).elim (hobs₂ o) (hobs₁ o)⟩

section Reaches
variable {allowed : Event → Prop} {goal goal' : State → List Obs → Prop} {s s₁ : State}
  {e : Event} {obs : List Obs}

/-- Allowed events can take the machine from `s` to a goal, which is met by a state together with what
is observed on the way there. -/
def Reaches (M : Machine State Event Obs) (allowed : Event → Prop)
    (goal : State → List Obs → Prop) (s : State) : Prop :=
  ∃ es s' obs, M.exec s es = some (s', obs) ∧ (∀ e ∈ es, allowed e) ∧ goal s' obs

theorem Reaches.done (h : goal s []) : M.Reaches allowed goal s :=
  ⟨[], s, [], rfl, by simp, h⟩

theorem Reaches.step (h : M.Reaches allowed (fun s' obs' => goal s' (obs' ++ obs)) s₁)
    (hstep : M.step s e = some (s₁, obs)) (he : allowed e) : M.Reaches allowed goal s := by
  obtain ⟨es, s', obs', hexec, hes, hgoal⟩ := h
  exact ⟨e :: es, s', _, exec_cons hstep hexec, by simpa using ⟨he, hes⟩, hgoal⟩

theorem Reaches.trans (h : M.Reaches allowed goal s)
    (hnext : ∀ s₁ obs, goal s₁ obs →
      M.Reaches allowed (fun s' obs' => goal' s' (obs' ++ obs)) s₁) :
    M.Reaches allowed goal' s := by
  obtain ⟨es, s₁, obs, hexec, hes, hgoal⟩ := h
  obtain ⟨es', s₂, obs', hexec', hes', hgoal'⟩ := hnext s₁ obs hgoal
  refine ⟨es ++ es', s₂, _, exec_append hexec hexec', ?_, hgoal'⟩
  intro e he
  cases List.mem_append.mp he with
  | inl h => exact hes e h
  | inr h => exact hes' e h

theorem Reaches.mono {allowed' : Event → Prop} (h : M.Reaches allowed goal s)
    (hallowed : ∀ e, allowed e → allowed' e) (hgoal : ∀ s' obs, goal s' obs → goal' s' obs) :
    M.Reaches allowed' goal' s := by
  obtain ⟨es, s', obs, hexec, hes, h⟩ := h
  exact ⟨es, s', obs, hexec, fun e he => hallowed e (hes e he), hgoal s' obs h⟩

theorem Reaches.after (h : M.Reaches allowed goal s₁)
    (hgoal : ∀ {s' obs' obs}, goal s' obs' → goal s' (obs' ++ obs))
    (hstep : M.step s e = some (s₁, obs)) (he : allowed e) : M.Reaches allowed goal s :=
  (h.mono (fun _ he => he) fun _ _ => hgoal).step hstep he

theorem Reaches.andThen (h : M.Reaches allowed goal s)
    (hnext : ∀ s₁ obs, goal s₁ obs → M.Reaches allowed goal' s₁)
    (hgoal : ∀ {s' obs' obs}, goal' s' obs' → goal' s' (obs' ++ obs)) :
    M.Reaches allowed goal' s :=
  h.trans fun s₁ obs hs => (hnext s₁ obs hs).mono (fun _ he => he) fun _ _ => hgoal

theorem Reaches.reachable {trace : List Obs} (hrun : M.Run trace s) (h : M.Reaches allowed goal s) :
    M.Reaches allowed (fun s' obs => goal s' obs ∧ M.Run (obs ++ trace) s') s := by
  obtain ⟨es, s', obs, hexec, hes, hgoal⟩ := h
  exact ⟨es, s', obs, hexec, hes, hgoal, hrun.exec hexec⟩

/-- A machine that matches every allowed step of a part of it by one of its own, in which it observes of
the part what the part does, goes wherever the part can go. -/
theorem Reaches.lifted {State' Event' Obs' : Type*} {N : Machine State' Event' Obs'}
    {f : State' → State} {g : Obs' → Option Obs} {allowed' : Event' → Prop}
    (hstep : ∀ {x e s' obs}, allowed e → M.step (f x) e = some (s', obs) →
      ∃ e' x' obs', N.step x e' = some (x', obs') ∧ allowed' e' ∧ f x' = s' ∧
        obs'.filterMap g = obs)
    {x : State'} (h : M.Reaches allowed goal (f x)) :
    N.Reaches allowed' (fun x' obs' => goal (f x') (obs'.filterMap g)) x := by
  obtain ⟨es, s', obs, hexec, hes, hgoal⟩ := h
  induction es generalizing x obs goal with
  | nil =>
    obtain ⟨rfl, rfl⟩ : f x = s' ∧ [] = obs := by simpa [exec] using hexec
    exact .done hgoal
  | cons e es ih =>
    simp only [exec, Option.bind_eq_bind, Option.bind_eq_some_iff, Option.pure_def,
      Option.some.injEq, Prod.mk.injEq, Prod.exists] at hexec
    obtain ⟨s₁, obs₁, hfirst, s₂, obs₂, hrest, rfl, rfl⟩ := hexec
    obtain ⟨e', x', obs', hx, he', hf, hobs⟩ := hstep (hes e List.mem_cons_self) hfirst
    rw [← hf] at hrest
    have hnext : N.Reaches allowed' (fun x' obs' => goal (f x') (obs'.filterMap g ++ obs₁)) x' :=
      @ih (fun s' obs => goal s' (obs ++ obs₁)) _ obs₂ hrest
        (fun e he => hes e (List.mem_cons_of_mem _ he)) hgoal
    refine Reaches.step (hnext.mono (fun _ he => he) ?_) hx he'
    intro x'' later hlater
    rw [List.filterMap_append, hobs]
    exact hlater

end Reaches

section Stamped
variable {Stamp : Type*} (stamp : State → Stamp)

/-- The same machine, with every observation stamped by the state it was made in. -/
def stamped (M : Machine State Event Obs) : Machine State Event (Obs × Stamp) where
  init := M.init
  step s e := (M.step s e).map fun r => (r.1, r.2.map fun o => (o, stamp s))

variable {stamp}

theorem stamped_step {s s' : State} {e : Event} {obs : List (Obs × Stamp)}
    (h : (M.stamped stamp).step s e = some (s', obs)) :
    ∃ obs', M.step s e = some (s', obs') ∧ obs = obs'.map fun o => (o, stamp s) := by
  obtain ⟨r, hr, hs⟩ := Option.map_eq_some_iff.mp h
  cases hs
  exact ⟨r.2, hr, rfl⟩

/-- Without its stamps a run of the stamped machine is one of the machine, and every run of the machine
can be stamped. -/
theorem run_stamped_iff {trace : List Obs} {s : State} :
    M.Run trace s ↔ ∃ trace', (M.stamped stamp).Run trace' s ∧ trace'.map Prod.fst = trace := by
  constructor
  · intro h
    induction h with
    | start => exact ⟨[], .start, rfl⟩
    | @next trace s e s' obs hr hs ih =>
      obtain ⟨trace', hrun, htrace⟩ := ih
      have hstep : (M.stamped stamp).step s e = some (s', obs.map fun o => (o, stamp s)) := by
        simp [stamped, hs]
      refine ⟨_, hrun.next hstep, ?_⟩
      simp [htrace, Function.comp_def]
  · intro h
    obtain ⟨trace', hrun, htrace⟩ := h
    have hsteps : ∀ {s e s' obs}, (M.stamped stamp).step s e = some (s', obs) →
        ∃ es, M.exec s es = some (s', obs.filterMap fun o => some o.1) := by
      intro s e s' obs hs
      obtain ⟨obs', hstep, hobs⟩ := stamped_step hs
      have heq : obs.filterMap (fun o => some o.1) = obs' := by
        rw [hobs, List.filterMap_map]
        exact List.filterMap_some
      exact ⟨[e], by rw [heq]; exact exec_single hstep⟩
    have hproj := Run.projected (M := M.stamped stamp) (N := M) (f := id) rfl hsteps hrun
    rw [← htrace]
    simpa [List.filterMap_eq_map'] using hproj

end Stamped

section Guarded
variable (guard : State → Event → Bool)

/-- The same machine, stuck at the first step that does not meet the guard. -/
def guarded (M : Machine State Event Obs) : Machine State Event Obs where
  init := M.init
  step s e := if guard s e then M.step s e else none

variable {guard}

theorem guarded_step {s s' : State} {e : Event} {obs : List Obs}
    (h : (M.guarded guard).step s e = some (s', obs)) :
    guard s e = true ∧ M.step s e = some (s', obs) := by
  by_cases hguard : guard s e = true
  · exact ⟨hguard, by simpa [guarded, hguard] using h⟩
  · simp [guarded, hguard] at h

theorem Run.unguarded {trace : List Obs} {s : State} (h : (M.guarded guard).Run trace s) :
    M.Run trace s := by
  refine Run.simulated (M := M.guarded guard) (N := M) (f := id) rfl ?_ h
  intro s e s' obs hstep
  exact ⟨[e], exec_single (guarded_step hstep).2⟩

end Guarded

section Ghosted
variable {Ghost : Type*} (ghost : Ghost) (update : Ghost → State → Event → List Obs → Ghost)

/-- The same machine beside a ghost, which every step updates and none reads. -/
def ghosted (M : Machine State Event Obs) : Machine (State × Ghost) Event Obs where
  init := (M.init, ghost)
  step s e := (M.step s.1 e).map fun r => ((r.1, update s.2 s.1 e r.2), r.2)

variable {ghost update}

theorem ghosted_step {s s' : State × Ghost} {e : Event} {obs : List Obs}
    (h : (M.ghosted ghost update).step s e = some (s', obs)) :
    M.step s.1 e = some (s'.1, obs) ∧ s'.2 = update s.2 s.1 e obs := by
  obtain ⟨r, hr, hs⟩ := Option.map_eq_some_iff.mp h
  cases hs
  exact ⟨hr, rfl⟩

/-- Every run can be had beside the ghost, and there is no other. -/
theorem run_ghosted_iff {trace : List Obs} {s : State} :
    M.Run trace s ↔ ∃ g, (M.ghosted ghost update).Run trace (s, g) := by
  constructor
  · intro h
    induction h with
    | start => exact ⟨ghost, .start⟩
    | @next trace s e s' obs hr hs ih =>
      obtain ⟨g, hrun⟩ := ih
      exact ⟨update g s e obs, hrun.next (e := e) (by simp [ghosted, hs])⟩
  · intro h
    obtain ⟨g, hrun⟩ := h
    refine hrun.simulated (f := Prod.fst) rfl ?_
    intro s e s' obs hstep
    exact ⟨[e], exec_single (ghosted_step hstep).1⟩

end Ghosted

end Machine
end AssetTracker.Lib
