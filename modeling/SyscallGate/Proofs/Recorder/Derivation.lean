/-
# What a run on the recorder derives

A call is a tree: its instruction that leaves is served by a handler, and the
handler may make calls of its own, each with a handler to serve it, as long as
the script has any. `Derives` says which events such a tree leaves behind, node
by node, with the selector and the rest of the script handed on from one node
to the next. It has no bound on the depth, and a call has one such tree
(`Derives.unique`). The processor records exactly these trees
(`callWith_derives`, `serve_served`): the bound that `serve` recurses on is
never met, because a call that nests deeper has a shorter script.

Key definitions: `Recorder.Standing`, `Recorder.Derives`, `Recorder.Served`,
`Recorder.Handled`, `Recorder.Serves`, `Recorder.Performs`.
Key theorems: `Recorder.Derives.unique`, `Recorder.callWith_derives`,
`Recorder.foldlM_handled`, `Recorder.serve_served`, `Recorder.call_derives`.
-/
import SyscallGate.Proofs.Privilege
import SyscallGate.Proofs.Routing

namespace SyscallGate
namespace Recorder

/-- What a call depends on beside its registers: the selector in force, and the
handlers still to come. -/
structure Standing where
  selector : UInt16
  script : List (List Action)

/-- What the processor stands at. -/
def standing (r : Recorder) : Standing := ⟨r.selector, r.script⟩

/-- The processor after events, the oldest of them first. -/
def advance (r : Recorder) (s : Standing) (events : List Event) : Recorder :=
  ⟨s.selector, s.script, events.reverse ++ r.history⟩

theorem advance_advance (r : Recorder) (s s' : Standing) (events events' : List Event) :
    (r.advance s events).advance s' events' = r.advance s' (events ++ events') := by
  simp [advance]

mutual

/-- A call of `regs`: the events it leaves, the way it goes, the registers it
comes back with, and what the next call stands at. -/
inductive Derives : Standing → Registers → List Event → Route → Registers → Standing → Prop
  | direct {s s' : Standing} {regs after : Registers} {events : List Event} :
      s.selector &&& 3 ≠ 0 → Served s regs events after s' →
      Derives s regs (.classify s.selector .reduced :: .syscall regs :: events) .direct after s'
  | redirect {s s' : Standing} {regs after : Registers} {events : List Event} :
      s.selector &&& 3 = 0 → Served s regs events after s' →
      Derives s regs (.classify s.selector .mostPrivileged :: .writeMsr 0xc0010130 0x16 ::
        .vmgexit regs :: events) .redirect after s'

/-- The service of an instruction that left with `regs`: by the next handler, or
by nobody. -/
inductive Served : Standing → Registers → List Event → Registers → Standing → Prop
  | nobody {selector : UInt16} {regs : Registers} : Served ⟨selector, []⟩ regs [] regs ⟨selector, []⟩
  | handler {selector : UInt16} {script : List (List Action)} {actions : List Action}
      {regs : Registers} {h : Handling} {events : List Event} {s' : Standing} :
      Handled ⟨selector, script⟩ (.start regs) actions events h s' →
      Served ⟨selector, actions :: script⟩ regs events h.regs s'

/-- The actions of a handler. A call among them is followed by its return. -/
inductive Handled : Standing → Handling → List Action → List Event → Handling → Standing → Prop
  | done {s : Standing} {h : Handling} : Handled s h [] [] h s
  | register {s s' : Standing} {h h' : Handling} {action : RegisterAction} {actions : List Action}
      {events : List Event} :
      Handled s { h with regs := action.apply h } actions events h' s' →
      Handled s h (.register action :: actions) events h' s'
  | selector {s s' : Standing} {h h' : Handling} {selector : UInt16} {actions : List Action}
      {events : List Event} :
      Handled { s with selector } h actions events h' s' →
      Handled s h (.selector selector :: actions) events h' s'
  | call {s t s' : Standing} {h h' : Handling} {regs after : Registers} {way : Route}
      {actions : List Action} {inner events : List Event} :
      Derives s regs inner way after t → Handled t { h with last := after } actions events h' s' →
      Handled s h (.call regs :: actions) (inner ++ .returned way after :: events) h' s'
  | again {s t s' : Standing} {h h' : Handling} {after : Registers} {way : Route}
      {actions : List Action} {inner events : List Event} :
      Derives s h.regs inner way after t → Handled t ⟨after, after⟩ actions events h' s' →
      Handled s h (.again :: actions) (inner ++ .returned way after :: events) h' s'

end

/-! ### There is one derivation -/

mutual

theorem Derives.unique {s t t' : Standing} {regs after after' : Registers} {events events' : List Event}
    {way way' : Route} : Derives s regs events way after t → Derives s regs events' way' after' t' →
    events = events' ∧ way = way' ∧ after = after' ∧ t = t'
  | .direct hring hs, h => by
    cases h with
    | direct _ hs' =>
      obtain ⟨rfl, rfl, rfl⟩ := hs.unique hs'
      exact ⟨rfl, rfl, rfl, rfl⟩
    | redirect hring' _ => exact absurd hring' hring
  | .redirect hring hs, h => by
    cases h with
    | direct hring' _ => exact absurd hring hring'
    | redirect _ hs' =>
      obtain ⟨rfl, rfl, rfl⟩ := hs.unique hs'
      exact ⟨rfl, rfl, rfl, rfl⟩

theorem Served.unique {s t t' : Standing} {regs after after' : Registers} {events events' : List Event} :
    Served s regs events after t → Served s regs events' after' t' →
    events = events' ∧ after = after' ∧ t = t'
  | .nobody, h => by
    cases h with
    | nobody => exact ⟨rfl, rfl, rfl⟩
  | .handler hh, h => by
    cases h with
    | handler hh' =>
      obtain ⟨rfl, rfl, rfl⟩ := hh.unique hh'
      exact ⟨rfl, rfl, rfl⟩

theorem Handled.unique {s t t' : Standing} {h after after' : Handling} {actions : List Action}
    {events events' : List Event} :
    Handled s h actions events after t → Handled s h actions events' after' t' →
    events = events' ∧ after = after' ∧ t = t'
  | .done, hh' => by
    cases hh' with
    | done => exact ⟨rfl, rfl, rfl⟩
  | .register hh, hh' => by
    cases hh' with
    | register hh' => exact hh.unique hh'
  | .selector hh, hh' => by
    cases hh' with
    | selector hh' => exact hh.unique hh'
  | .call hd hh, hh' => by
    cases hh' with
    | call hd' hh' =>
      obtain ⟨rfl, rfl, rfl, rfl⟩ := hd.unique hd'
      obtain ⟨rfl, rfl, rfl⟩ := hh.unique hh'
      exact ⟨rfl, rfl, rfl⟩
  | .again hd hh, hh' => by
    cases hh' with
    | again hd' hh' =>
      obtain ⟨rfl, rfl, rfl, rfl⟩ := hd.unique hd'
      obtain ⟨rfl, rfl, rfl⟩ := hh.unique hh'
      exact ⟨rfl, rfl, rfl⟩

end

/-! ### The processor records them -/

section Leave

variable (classifier : Classifier) (leave : Registers → StateM Recorder Registers)

/-- Instructions that leave are served as long as no more handlers are to come
than a bound, and never by more of them than there are. -/
def Serves (bound : Nat) : Prop :=
  ∀ (regs : Registers) (r : Recorder), r.script.length ≤ bound →
    ∃ events after s, Served r.standing regs events after s ∧ s.script.length ≤ r.script.length ∧
      (leave regs).run r = (after, r.advance s events)

theorem callWith_run (regs : Registers) (r : Recorder) :
    (callWith classifier leave regs).run r =
      if r.selector &&& 3 = 0 then
        let (after, left) := (leave regs).run (r.advance r.standing
          [.classify r.selector .mostPrivileged, .writeMsr 0xc0010130 0x16, .vmgexit regs])
        (.ok (.redirect, after), left)
      else
        let (after, left) := (leave regs).run (r.advance r.standing
          [.classify r.selector .reduced, .syscall regs])
        (.ok (.direct, after), left) := by
  have hask : ((processor classifier leave).callerClass).run r =
    (classifier.classify r.selector,
      r.advance r.standing [.classify r.selector (classifier.classify r.selector)]) := rfl
  rw [callWith, route_run, Processor.passOn, StateT.run_map, StateT.run_bind, hask, classifier.classify_eq]
  by_cases hring : r.selector &&& 3 = 0
  · rw [if_pos hring, if_pos hring]
    rfl
  · rw [if_neg hring, if_neg hring]
    rfl

variable {classifier leave} {bound : Nat}

/-- A call derives its events from those of the service. -/
theorem callWith_derives (hl : Serves leave bound) (regs : Registers) (r : Recorder)
    (hr : r.script.length ≤ bound) :
    ∃ events way after s, Derives r.standing regs events way after s ∧
      s.script.length ≤ r.script.length ∧
      (callWith classifier leave regs).run r = (.ok (way, after), r.advance s events) := by
  rw [callWith_run]
  by_cases hring : r.selector &&& 3 = 0
  · obtain ⟨events, after, s, hserved, hs, hrun⟩ := hl regs (r.advance r.standing
      [.classify r.selector .mostPrivileged, .writeMsr 0xc0010130 0x16, .vmgexit regs]) hr
    refine ⟨_, _, after, s, .redirect hring hserved, hs, ?_⟩
    rw [if_pos hring, hrun, advance_advance]
    rfl
  · obtain ⟨events, after, s, hserved, hs, hrun⟩ := hl regs (r.advance r.standing
      [.classify r.selector .reduced, .syscall regs]) hr
    refine ⟨_, _, after, s, .direct hring hserved, hs, ?_⟩
    rw [if_neg hring, hrun, advance_advance]
    rfl

theorem nested_derives (hl : Serves leave bound) (regs : Registers) (r : Recorder)
    (hr : r.script.length ≤ bound) :
    ∃ events way after s, Derives r.standing regs events way after s ∧
      s.script.length ≤ r.script.length ∧
      (nested classifier leave regs).run r =
        (some after, r.advance s (events ++ [.returned way after])) := by
  obtain ⟨events, way, after, s, hd, hs, hrun⟩ := callWith_derives hl regs r hr
  refine ⟨events, way, after, s, hd, hs, ?_⟩
  rw [nested, StateT.run_bind, hrun, ← advance_advance]
  rfl

/-- Actions are performed as they are handled, no more handlers being to come
than the bound. -/
def Performs (classifier : Classifier) (leave : Registers → StateM Recorder Registers) (bound : Nat)
    (actions : List Action) : Prop :=
  ∀ (h : Handling) (r : Recorder), r.script.length ≤ bound →
    ∃ events h' s, Handled r.standing h actions events h' s ∧ s.script.length ≤ r.script.length ∧
      (actions.foldlM (perform classifier leave) h).run r = (h', r.advance s events)

theorem performs_nested (hl : Serves leave bound) {actions : List Action}
    (htail : Performs classifier leave bound actions) (h : Handling) (r : Recorder)
    (hr : r.script.length ≤ bound) (action : Action) (regs : Registers) (next : Registers → Handling)
    (haction : perform classifier leave h action = do
      match ← nested classifier leave regs with
      | some after => return next after
      | none => return h) :
    ∃ inner way after t events h' s, Derives r.standing regs inner way after t ∧
      Handled t (next after) actions events h' s ∧ s.script.length ≤ r.script.length ∧
      ((action :: actions).foldlM (perform classifier leave) h).run r =
        (h', r.advance s (inner ++ .returned way after :: events)) := by
  obtain ⟨inner, way, after, t, hd, ht, hcall⟩ := nested_derives hl regs r hr
  obtain ⟨events, h', s, hh, hs, hrun⟩ := htail (next after)
    (r.advance t (inner ++ [.returned way after])) (Nat.le_trans ht hr)
  have hperform : (perform classifier leave h action).run r =
      (next after, r.advance t (inner ++ [.returned way after])) := by
    rw [haction, StateT.run_bind, hcall]
    rfl
  refine ⟨inner, way, after, t, events, h', s, hd, hh, Nat.le_trans hs ht, ?_⟩
  rw [List.foldlM_cons, StateT.run_bind, hperform]
  rw [advance_advance, List.append_assoc] at hrun
  exact hrun

/-- The actions of a handler, one after the other. -/
theorem foldlM_handled (hl : Serves leave bound) : ∀ actions : List Action,
    Performs classifier leave bound actions
  | [], h, r, _ => ⟨[], h, r.standing, .done, Nat.le_refl _, rfl⟩
  | .register action :: actions, h, r, hr => by
    obtain ⟨events, h', s, hh, hs, hrun⟩ := foldlM_handled hl actions { h with regs := action.apply h } r hr
    exact ⟨events, h', s, .register hh, hs, hrun⟩
  | .selector selector :: actions, h, r, hr => by
    obtain ⟨events, h', s, hh, hs, hrun⟩ := foldlM_handled hl actions h { r with selector } hr
    exact ⟨events, h', s, .selector hh, hs, hrun⟩
  | .call regs :: actions, h, r, hr => by
    obtain ⟨inner, way, after, t, events, h', s, hd, hh, hs, hrun⟩ :=
      performs_nested hl (foldlM_handled hl actions) h r hr (.call regs) regs
        (fun after => { h with last := after }) rfl
    exact ⟨_, h', s, .call hd hh, hs, hrun⟩
  | .again :: actions, h, r, hr => by
    obtain ⟨inner, way, after, t, events, h', s, hd, hh, hs, hrun⟩ :=
      performs_nested hl (foldlM_handled hl actions) h r hr .again h.regs (fun after => ⟨after, after⟩) rfl
    exact ⟨_, h', s, .again hd hh, hs, hrun⟩

end Leave

/-- **The script serves, as long as it lasts.** A handler is taken off before it
makes calls, so the bound on the depth is never met. -/
theorem serve_served (classifier : Classifier) : ∀ depth : Nat, Serves (serve classifier depth) depth
  | 0, regs, ⟨selector, script, history⟩, hr => by
    obtain rfl : script = [] := List.eq_nil_of_length_eq_zero (Nat.le_zero.mp hr)
    exact ⟨[], regs, ⟨selector, []⟩, .nobody, Nat.le_refl _, rfl⟩
  | depth + 1, regs, ⟨selector, [], history⟩, _ =>
    ⟨[], regs, ⟨selector, []⟩, .nobody, Nat.le_refl _, rfl⟩
  | depth + 1, regs, ⟨selector, actions :: script, history⟩, hr => by
    -- the rest of the script is within the bound for calls one level deeper
    obtain ⟨events, h, s, hh, hs, hrun⟩ := foldlM_handled (serve_served classifier depth) actions
      (.start regs) ⟨selector, script, history⟩ (Nat.le_of_succ_le_succ hr)
    have hnext : nextHandler.run ⟨selector, actions :: script, history⟩ =
        (some actions, ⟨selector, script, history⟩) := rfl
    refine ⟨events, h.regs, s, .handler hh, Nat.le_succ_of_le hs, ?_⟩
    rw [serve, StateT.run_bind, hnext]
    change StateT.run (_ >>= _) _ = _
    rw [StateT.run_bind, hrun]
    rfl

/-- **A call leaves the events it derives.** -/
theorem call_derives (classifier : Classifier) (regs : Registers) (r : Recorder) :
    ∃ events way after s, Derives r.standing regs events way after s ∧
      (call classifier regs).run r = (.ok (way, after), r.advance s events) := by
  obtain ⟨events, way, after, s, hd, -, hrun⟩ := callWith_derives
    (serve_served classifier r.script.length) regs r (Nat.le_refl _)
  refine ⟨events, way, after, s, hd, ?_⟩
  rw [call, StateT.run_bind, StateT.run_get, pure_bind]
  exact hrun

end Recorder
end SyscallGate
