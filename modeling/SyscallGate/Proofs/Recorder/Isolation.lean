/-
# Calls in between leave the outer registers alone

A handler that serves a call may make calls of its own, of other register sets,
and handlers serve those. What the outer registers come to depends on the
handler's own writes only: each call in between hands back one register set, from
which later writes may copy (`ownWrites`), and that is all that passes from it to
the outer registers. Nothing passes the other way: which calls are made and what
they come to is settled without the outer registers (`Calls`). The trees of
`Derives` have this at every node, so it holds at any depth.

Key definitions: `Recorder.Standing.handler`, `Recorder.Standing.rest`,
`Recorder.Calls`, `Recorder.ownWrites`.
Key theorems: `Recorder.Handled.ownWrites`, `Recorder.Derives.ownWrites`,
`Recorder.get_ownWrites`, `Recorder.callWith_leaves_ownWrites`.
-/
import SyscallGate.Proofs.Recorder.Derivation

namespace SyscallGate

namespace Recorder

/-- The actions of whoever serves the next instruction that leaves: none, when
the script is used up. -/
def Standing.handler (s : Standing) : List Action := s.script.headD []

/-- What these actions stand at. -/
def Standing.rest (s : Standing) : Standing := { s with script := s.script.tail }

/-- The calls that actions make of other register sets, each from where the one
before it ended, and the registers they come back with. -/
inductive Calls : Standing → List Action → List Registers → Standing → Prop
  | done {s : Standing} : Calls s [] [] s
  | register {s s' : Standing} {action : RegisterAction} {actions : List Action}
      {returns : List Registers} :
      Calls s actions returns s' → Calls s (.register action :: actions) returns s'
  | selector {s s' : Standing} {selector : UInt16} {actions : List Action} {returns : List Registers} :
      Calls { s with selector } actions returns s' → Calls s (.selector selector :: actions) returns s'
  | call {s t s' : Standing} {regs after : Registers} {way : Route} {events : List Event}
      {actions : List Action} {returns : List Registers} :
      Derives s regs events way after t → Calls t actions returns s' →
      Calls s (.call regs :: actions) (after :: returns) s'

theorem Calls.unique {s t t' : Standing} {actions : List Action} {returns returns' : List Registers}
    (h : Calls s actions returns t) (h' : Calls s actions returns' t') : returns = returns' ∧ t = t' := by
  induction h generalizing returns' with
  | done =>
    cases h' with
    | done => exact ⟨rfl, rfl⟩
  | register _ ih =>
    cases h' with
    | register h' => exact ih h'
  | selector _ ih =>
    cases h' with
    | selector h' => exact ih h'
  | call hd _ ih =>
    cases h' with
    | call hd' h' =>
      obtain ⟨-, -, rfl, rfl⟩ := hd.unique hd'
      obtain ⟨rfl, rfl⟩ := ih h'
      exact ⟨rfl, rfl⟩

/-- The registers after the writes among the actions, in order. A call among
them only says what can be copied from: the next of `returns`. -/
def ownWrites : List Action → List Registers → Handling → Registers
  | .register action :: actions, returns, h =>
    ownWrites actions returns { h with regs := action.apply h }
  | .selector _ :: actions, returns, h => ownWrites actions returns h
  | .call _ :: actions, after :: returns, h => ownWrites actions returns { h with last := after }
  | .call _ :: actions, [], h => ownWrites actions [] h
  | .again :: actions, returns, h => ownWrites actions returns h
  | [], _, h => h.regs

theorem get_ownWrites {r : Register} : ∀ (actions : List Action) (returns : List Registers) (h : Handling),
    (∀ action, .register action ∈ actions → action.target ≠ r) →
    (ownWrites actions returns h).get r = h.regs.get r
  | [], _, _, _ => rfl
  | .register action :: actions, returns, h, hr => by
    have hne : r ≠ action.target := (hr action List.mem_cons_self).symm
    rw [ownWrites, get_ownWrites actions returns _ fun a ha => hr a (List.mem_cons_of_mem _ ha)]
    exact RegisterAction.get_apply_other h hne
  | .selector _ :: actions, returns, h, hr =>
    get_ownWrites actions returns h fun a ha => hr a (List.mem_cons_of_mem _ ha)
  | .call _ :: actions, after :: returns, h, hr =>
    get_ownWrites actions returns { h with last := after } fun a ha => hr a (List.mem_cons_of_mem _ ha)
  | .call _ :: actions, [], h, hr =>
    get_ownWrites actions [] h fun a ha => hr a (List.mem_cons_of_mem _ ha)
  | .again :: actions, returns, h, hr =>
    get_ownWrites actions returns h fun a ha => hr a (List.mem_cons_of_mem _ ha)

theorem Handled.ownWrites : ∀ {actions : List Action} {s s' : Standing} {h h' : Handling}
    {events : List Event}, Handled s h actions events h' s' → .again ∉ actions →
    ∃ returns, Calls s actions returns s' ∧ h'.regs = Recorder.ownWrites actions returns h
  | [], _, _, _, _, _, .done, _ => ⟨[], .done, rfl⟩
  | .register _ :: _, _, _, _, _, _, .register hh, hother => by
    obtain ⟨returns, hcalls, hregs⟩ := hh.ownWrites fun hmem => hother (List.mem_cons_of_mem _ hmem)
    exact ⟨returns, .register hcalls, hregs⟩
  | .selector _ :: _, _, _, _, _, _, .selector hh, hother => by
    obtain ⟨returns, hcalls, hregs⟩ := hh.ownWrites fun hmem => hother (List.mem_cons_of_mem _ hmem)
    exact ⟨returns, .selector hcalls, hregs⟩
  | .call _ :: _, _, _, _, _, _, .call hd hh, hother => by
    obtain ⟨returns, hcalls, hregs⟩ := hh.ownWrites fun hmem => hother (List.mem_cons_of_mem _ hmem)
    exact ⟨_, .call hd hcalls, hregs⟩
  | .again :: _, _, _, _, _, _, .again _ _, hother => absurd List.mem_cons_self hother

/-- **A call comes to the writes of its own handler.** -/
theorem Served.ownWrites {s s' : Standing} {regs after : Registers} {events : List Event}
    (h : Served s regs events after s') (hother : .again ∉ s.handler) :
    ∃ returns, Calls s.rest s.handler returns s' ∧
      after = Recorder.ownWrites s.handler returns (.start regs) := by
  cases h with
  | nobody => exact ⟨[], .done, rfl⟩
  | handler hh => exact hh.ownWrites hother

theorem Derives.ownWrites {s s' : Standing} {regs after : Registers} {events : List Event} {way : Route}
    (h : Derives s regs events way after s') (hother : .again ∉ s.handler) :
    way = (if s.selector &&& 3 = 0 then .redirect else .direct) ∧
      ∃ returns, Calls s.rest s.handler returns s' ∧
        after = Recorder.ownWrites s.handler returns (.start regs) := by
  cases h with
  | direct hring hserved => exact ⟨(if_neg hring).symm, hserved.ownWrites hother⟩
  | redirect hring hserved => exact ⟨(if_pos hring).symm, hserved.ownWrites hother⟩

/-- **Calls in between cannot disturb the caller.** A call whose handler makes
calls of other register sets comes back with the registers it was staged with
and the handler's own writes to them, in order, where what is copied from a call
in between is what that call came back with: there is one thing that the calls
can come to. A register that none of these writes names has the word it was
staged with. It is so at any depth that has room for the handlers to come. -/
theorem callWith_leaves_ownWrites (classifier : Classifier) (depth : Nat) (r : Recorder)
    (regs : Registers) (hdepth : r.script.length ≤ depth) (hother : .again ∉ r.standing.handler) :
    ∃ returns s events, Calls r.standing.rest r.standing.handler returns s ∧
      (∀ returns' s', Calls r.standing.rest r.standing.handler returns' s' → returns' = returns) ∧
      let after := ownWrites r.standing.handler returns (.start regs)
      (callWith classifier (serve classifier depth) regs).run r =
        (.ok (if r.selector &&& 3 = 0 then .redirect else .direct, after), r.advance s events) ∧
      ∀ register, (∀ action, .register action ∈ r.standing.handler → action.target ≠ register) →
        after.get register = regs.get register := by
  obtain ⟨events, way, after, s, hd, -, hrun⟩ :=
    callWith_derives (serve_served classifier depth) regs r hdepth
  obtain ⟨hway, returns, hcalls, hafter⟩ := hd.ownWrites hother
  refine ⟨returns, s, events, hcalls, fun _ _ h => (h.unique hcalls).1, ?_, fun register hregister => ?_⟩
  · rw [hrun, hway, hafter]
    rfl
  · exact get_ownWrites _ returns _ hregister

/-- A handler in ring 0 that makes a call in ring 3, copies what it returned,
and makes another in ring 0; the first of these is served by a handler that
makes the same call again. -/
theorem callWith_leaves_ownWrites_both_rings :
    let regs : Registers := ⟨39, 1, 2, 0xffffffffffffffff, 4, 5, 6, 7, 8, 0x246⟩
    let handler : List Action := [.selector 0x33, .call (.stage 7 [1]), .register (.take .rdi .rax),
      .selector 0x10, .call (.stage 8 [2, 3]), .register (.add .rax 1)]
    let inner : List Action := [.register (.set .rax 5), .register (.set .rcx 6), .selector 0, .again]
    ∃ after, ((callWith .bySelector (serve .bySelector 2) regs).run (start 0x10 [handler, inner])).1 =
        .ok (.redirect, after) ∧
      ∀ register, register ≠ .rdi → register ≠ .rax → after.get register = regs.get register := by
  intro regs handler inner
  obtain ⟨returns, s, events, -, -, hrun, hkept⟩ := callWith_leaves_ownWrites .bySelector 2
    (start 0x10 [handler, inner]) regs (by decide) (by decide)
  rw [if_pos (by decide)] at hrun
  refine ⟨_, congrArg Prod.fst hrun, fun register hrdi hrax => hkept register fun action haction => ?_⟩
  have hwrites : action = .take .rdi .rax ∨ action = .add .rax 1 := by
    simpa [Standing.handler, standing, start, handler] using haction
  rcases hwrites with rfl | rfl
  · exact hrdi.symm
  · exact hrax.symm

end Recorder
end SyscallGate
