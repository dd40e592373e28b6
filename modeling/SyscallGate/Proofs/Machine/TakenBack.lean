/-
# What a call brings back

A call leaves with what its window shows, and whoever serves it leaves ten words
behind. Nine of them come back as they are. Of the flags routing takes none, so
they are what they were before; the entry code takes the loadable ones. So nothing
shows of what happens to the registers on the way: of what is saved around the
write of the request, or of the zero flag after the test of the ring.

A handler that writes no register leaves them as the instruction handed them over
(`Follows.after_eq`): VMGEXIT hands over all as they were, SYSCALL all but RCX and
R11. Steps that the handler runs in between are no matter.

Key definitions: `Machine.Departure`, `Machine.depart`, `Machine.Departure.after`,
`Machine.Action.target?`.
Key theorems: `Machine.Step.Through.runStep_run`, `Machine.runStep_call`,
`Machine.Follows.get_unwritten`, `Machine.Follows.after_eq`,
`Machine.registers_taken_back`.
-/
import SyscallGate.Proofs.Machine.Termination
import SyscallGate.Proofs.Machine.Window

namespace SyscallGate
namespace Machine

/-! ### Leaving and coming back -/

/-- A call that has left: by which instruction, with which registers handed over,
and the machine then. -/
structure Departure where
  kind : Exit
  shown : Registers
  machine : Machine

/-- The registers as whoever serves the call leaves them. -/
def Departure.after (server : Server) (d : Departure) : Registers := ((server d.shown).run d.machine).1

theorem approach_kind (m : Machine) :
    (approach.run m).1 = if m.selector &&& 3 = 0 then .vmgexit else .syscall := by
  rw [approach_run]
  by_cases hring : m.selector &&& 3 = 0
  · rw [if_pos hring, if_pos hring]
    rfl
  · rw [if_neg hring, if_neg hring]
    rfl

/-- How a step gets to where its call has left. -/
def depart (settings : Settings) (window : Exit → Window) (regs : Registers) (m : Machine) : Departure :=
  let (kind, near) := approach.run (m.withBudget settings.halts settings.pauses)
  { kind
    shown := kind.handOver ((window kind).look regs)
    machine := near.recording (.exit kind .call ((window kind).shown.map fun r => (r, regs.get r))) }

section Depart

variable (settings : Settings) (window : Exit → Window) (regs : Registers) (m : Machine)

theorem depart_kind :
    (depart settings window regs m).kind = if m.selector &&& 3 = 0 then .vmgexit else .syscall :=
  approach_kind (m.withBudget settings.halts settings.pauses)

theorem depart_script : (depart settings window regs m).machine.script = m.script :=
  approach_script (m.withBudget settings.halts settings.pauses)

/-- **A step with a call makes its result of what the window takes back.** -/
theorem Step.Through.runStep_run {step : Step} {window : Exit → Window} {regs : Registers}
    {finish : Exit × Registers → Result} (h : step.Through window regs finish) (server : Server) :
    let d := depart settings window regs m
    (runStep settings server step).run m =
      (finish (d.kind, (window d.kind).takeBack regs (d.after server)),
        ((server d.shown).run d.machine).2.withBudget m.haltsLeft m.pausesLeft) := by
  intro d
  rw [Machine.runStep_run, h, StateT.run_map, gate_run]
  rfl

theorem runStep_call (server : Server) (call : Call) :
    let d := depart settings (fun _ => Window.ofCall call) call.staged m
    (runStep settings server (.call call)).run m =
      (.returned (d.after server).rax, ((server d.shown).run d.machine).2.withBudget m.haltsLeft m.pausesLeft) := by
  intro d
  rw [(Step.call_through call).runStep_run]
  rfl

end Depart

/-! ### Handlers that write no register -/

/-- The register that an action writes, if it writes one. -/
def Action.target? : Action → Option Register
  | register action => some action.target
  | _ => none

section Handler

variable {settings : Settings} {r : Register}

/-- No other action, and no step that a handler runs, has to do with the registers
that it serves. -/
theorem get_perform (server : Server) (h : Handling) {action : Action} (hr : action.target? ≠ some r)
    (m : Machine) : ((perform settings server h action).run m).1.regs.get r = h.regs.get r := by
  cases action with
  | register action => exact RegisterAction.get_apply_other h fun heq => hr (congrArg some heq.symm)
  | selector _ | msr _ _ | run _ => rfl

theorem get_actions (server : Server) : ∀ (actions : List Action) (h : Handling) (m : Machine),
    (∀ action ∈ actions, action.target? ≠ some r) →
    ((actions.foldlM (perform settings server) h).run m).1.regs.get r = h.regs.get r
  | [], _, _, _ => rfl
  | action :: actions, h, m, hr => by
    obtain ⟨hfirst, hrest⟩ := List.forall_mem_cons.mp hr
    rw [List.foldlM_cons, StateT.run_bind]
    exact (get_actions server actions _ _ hrest).trans (get_perform server h hfirst m)

theorem get_serve (depth : Nat) (regs : Registers) (m : Machine)
    (hr : ∀ action ∈ m.script.headD [], action.target? ≠ some r) :
    ((serve settings depth regs).run m).1.get r = regs.get r := by
  obtain ⟨selector, msrs, input, written, console, script, haltsLeft, pausesLeft, history⟩ := m
  cases depth with
  | zero => rfl
  | succ depth =>
    cases script with
    | nil => rfl
    | cons handler script => exact get_actions (serve settings depth) handler (.start regs) _ hr

variable {server : Server}

/-- **A register that the next handler does not write is left as it was handed
over**, whatever else the handler does. -/
theorem Follows.get_unwritten (h : Follows settings server) (regs : Registers) (m : Machine)
    (hr : ∀ action ∈ m.script.headD [], action.target? ≠ some r) : ((server regs).run m).1.get r = regs.get r := by
  cases h with
  | script => exact get_serve m.script.length regs m hr
  | depth depth => exact get_serve depth regs m hr

theorem Follows.after_eq (h : Follows settings server) {d : Departure}
    (hquiet : ∀ action ∈ d.machine.script.headD [], action.target? = none) : d.after server = d.shown :=
  Registers.ext_get fun _ => h.get_unwritten d.shown d.machine fun action haction => by
    rw [hquiet action haction]
    exact nofun

end Handler

/-! ### The registers that come back -/

theorem rflags_takeBack_ofRoute (kind : Exit) (before after : Registers) :
    ((Window.ofRoute kind).takeBack before after).rflags = before.rflags := by
  cases kind <;> rfl

theorem rflags_takeBack_whole (before after : Registers) :
    (Window.whole.takeBack before after).rflags = Flags.load before.rflags after.rflags := rfl

theorem mem_taken_ofRoute (kind : Exit) {r : Register} (hr : r ≠ .rflags) :
    r ∈ (Window.ofRoute kind).taken := by
  cases kind <;> cases r <;> first | decide | exact absurd rfl hr

/-- Routing hands over what there is, with idle flags; what it hides from SYSCALL
is what that writes. -/
theorem handOver_look_ofRoute (regs : Registers) (kind : Exit) :
    kind.handOver ((Window.ofRoute kind).look regs) = kind.handOver { regs with rflags := Flags.idle } := by
  have hlook := (Window.ofRoute kind).get_look regs
  generalize (Window.ofRoute kind).look regs = seen at hlook
  refine Registers.ext_get fun r => ?_
  cases kind with
  | vmgexit =>
    refine (hlook r).trans ?_
    cases r <;> rfl
  | syscall =>
    have hset (seen : Registers) :
        Exit.syscall.handOver seen = (seen.set .rcx returnAddress).set .r11 seen.rflags := rfl
    have hflags : seen.rflags = Flags.idle := hlook .rflags
    rw [hset, hset, hflags, Registers.get_set, Registers.get_set, Registers.get_set, Registers.get_set]
    by_cases hr11 : r = .r11
    · rw [if_pos hr11, if_pos hr11]
    · by_cases hrcx : r = .rcx
      · rw [if_neg hr11, if_neg hr11, if_pos hrcx, if_pos hrcx]
      · rw [if_neg hr11, if_neg hr11, if_neg hrcx, if_neg hrcx, hlook]
        cases r <;> first | exact absurd rfl hr11 | exact absurd rfl hrcx | rfl

theorem takeBack_handOver_ofRoute (regs : Registers) (kind : Exit) :
    (Window.ofRoute kind).takeBack regs (kind.handOver ((Window.ofRoute kind).look regs)) =
      { kind.handOver { regs with rflags := Flags.idle } with rflags := regs.rflags } := by
  rw [handOver_look_ofRoute]
  refine Registers.ext_get fun r => ?_
  by_cases hr : r = .rflags
  · rw [hr]
    exact rflags_takeBack_ofRoute _ _ _
  · rw [Window.get_takeBack _ _ _ hr, if_pos (mem_taken_ofRoute kind hr)]
    cases r <;> first | exact absurd rfl hr | rfl

theorem takeBack_handOver_whole (regs : Registers) (kind : Exit) :
    Window.whole.takeBack regs (kind.handOver (Window.whole.look regs)) = kind.handOver regs := by
  have hlook : Window.whole.look regs = regs := Registers.ext_get fun r => by
    rw [Window.get_look]
    exact if_pos r.mem_all
  rw [hlook]
  refine Registers.ext_get fun r => ?_
  by_cases hr : r = .rflags
  · have hflags : (kind.handOver regs).rflags = regs.rflags := by cases kind <;> rfl
    have hsame : Flags.load regs.rflags (kind.handOver regs).rflags = (kind.handOver regs).rflags := by
      rw [hflags, Flags.load_of_same rfl]
    rw [hr]
    exact (rflags_takeBack_whole _ _).trans hsame
  · rw [Window.get_takeBack _ _ _ hr]
    exact if_pos r.mem_all

/-- **A call brings back nine registers as they were left**, and the flags as they
were before; of the entry code those that may be loaded as they were left. If none
was written in between, VMGEXIT changes nothing, and SYSCALL the return address and
the flags it puts into RCX and R11. -/
theorem registers_taken_back (settings : Settings) (server : Server) (m : Machine) (regs : Registers) :
    let entry := { regs with rflags := Flags.load Flags.idle regs.rflags }
    let routed := depart settings Window.ofRoute regs m
    let entered := depart settings (fun _ => Window.whole) entry m
    (∃ back : Registers,
      ((runStep settings server (.route regs)).run m).1 = .routed routed.kind.route back ∧
      ((runStep settings server (.routeImage (some regs))).run m).1 = .answered back.rax.toInt64 (some back) ∧
      back.rflags = regs.rflags ∧ (∀ r, r ≠ .rflags → back.get r = (routed.after server).get r) ∧
      (routed.after server = routed.shown →
        back = if m.selector &&& 3 = 0 then regs else { regs with rcx := 0x401000, r11 := 0x202 })) ∧
    (∃ back : Registers,
      ((runStep settings server (.entryCode regs)).run m).1 = .registers back ∧
      (∀ r, r ≠ .rflags → back.get r = (entered.after server).get r) ∧
      back.rflags &&& 0xcd5 = (entered.after server).rflags &&& 0xcd5 ∧
      back.rflags &&& ~~~0xcd5 = entry.rflags &&& ~~~0xcd5 ∧
      ((entered.after server).rflags &&& 0xcd5 = entry.rflags &&& 0xcd5 → back.rflags = entry.rflags) ∧
      (entered.after server = entered.shown →
        back = if m.selector &&& 3 = 0 then entry else { entry with rcx := 0x401000, r11 := entry.rflags })) ∧
    (Follows settings server → (∀ action ∈ m.script.headD [], action.target? = none) →
      routed.after server = routed.shown ∧ entered.after server = entered.shown) := by
  intro entry routed entered
  have hrouted : routed.kind = _ := depart_kind settings Window.ofRoute regs m
  have hentered : entered.kind = _ := depart_kind settings (fun _ => Window.whole) entry m
  refine ⟨?routing, ?entering, ?unwritten⟩
  case routing =>
    have hshown : routed.shown = routed.kind.handOver ((Window.ofRoute routed.kind).look regs) := rfl
    refine ⟨(Window.ofRoute routed.kind).takeBack regs (routed.after server), ?_, ?_,
      rflags_takeBack_ofRoute _ _ _, fun r hr => ?_, fun hkept => ?_⟩
    · rw [(Step.route_through regs).runStep_run]
    · rw [(Step.routeImage_through regs).runStep_run]
      rfl
    · rw [Window.get_takeBack _ _ _ hr, if_pos (mem_taken_ofRoute _ hr)]
    · rw [hkept, hshown, takeBack_handOver_ofRoute, hrouted]
      by_cases hring : m.selector &&& 3 = 0
      · rw [if_pos hring, if_pos hring]
        rfl
      · rw [if_neg hring, if_neg hring]
        rfl
  case entering =>
    have hshown : entered.shown = entered.kind.handOver (Window.whole.look entry) := rfl
    refine ⟨Window.whole.takeBack entry (entered.after server), ?_, fun r hr => ?_, Flags.load_and_loadable _ _,
      Flags.load_and_not_loadable _ _, fun hsame => Flags.load_of_and_loadable hsame, fun hkept => ?_⟩
    · rw [(Step.entryCode_through regs).runStep_run]
    · rw [Window.get_takeBack _ _ _ hr]
      exact if_pos r.mem_all
    · rw [hkept, hshown, takeBack_handOver_whole, hentered]
      by_cases hring : m.selector &&& 3 = 0
      · rw [if_pos hring, if_pos hring]
        rfl
      · rw [if_neg hring, if_neg hring]
        rfl
  case unwritten =>
    intro hfollows hquiet
    exact ⟨hfollows.after_eq (depart_script settings _ regs m ▸ hquiet),
      hfollows.after_eq (depart_script settings _ entry m ▸ hquiet)⟩

/-- A handler that writes no register: it runs a call of its own, whose handler
writes RAX and the flags, and changes the ring. -/
theorem registers_taken_back_unwritten :
    let settings : Settings := ⟨false, 1, 1, 0x400000⟩
    let regs : Registers := ⟨39, 1, 2, 3, 4, 5, 6, 7, 8, 0x8d5⟩
    let m := start settings 0x33 [] [] true
      [[.run (.call ⟨60, [1], by decide⟩), .selector 0x10], [.register (.set .rax 5), .register (.set .rflags 0)]]
    ((runStep settings (handle settings) (.route regs)).run m).1 =
        .routed .direct { regs with rcx := 0x401000, r11 := 0x202 } ∧
      ((runStep settings (handle settings) (.entryCode regs)).run m).1 =
        .registers { regs with rcx := 0x401000, r11 := 0xad7, rflags := 0xad7 } := by
  intro settings regs m
  obtain ⟨⟨back, hroute, -, -, -, hback⟩, ⟨back', hentry, -, -, -, -, hback'⟩, hquiet⟩ :=
    registers_taken_back settings (handle settings) m regs
  obtain ⟨hrouted, hentered⟩ := hquiet .script (by simp [m, start, Action.target?])
  rw [hroute, hentry, hback hrouted, hback' hentered]
  exact ⟨by decide +kernel, by decide +kernel⟩

end Machine
end SyscallGate
