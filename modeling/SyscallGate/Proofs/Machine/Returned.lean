/-
# What a caller is told

The word that a handler leaves in RAX is all that a caller is told: whoever passed
the registers in memory gets it with a sign, and in memory without one; whoever
routed them on the processor, or has a call site, splits it. So they are told the
same (`outcomes_agree`). Whoever passes no registers is told an errno as well, and
nothing else happens but a message, if the build has messages (`refused_run`).

Key theorems: `Machine.routed_returns`, `Machine.call_returns`,
`Machine.refused_run`, `Machine.outcomes_agree`.
-/
import SyscallGate.Proofs.Outcome
import SyscallGate.Proofs.Machine.StartUp
import SyscallGate.Proofs.Machine.TakenBack

namespace SyscallGate
namespace Machine

variable (settings : Settings) (server : Server) (m : Machine)

theorem routed_returns (regs : Registers) : ∃ way back,
    ((runStep settings server (.route regs)).run m).1 = .routed way back ∧
      ((runStep settings server (.routeImage (some regs))).run m).1 = .answered back.rax.toInt64 (some back) ∧
      back.rax = ((depart settings Window.ofRoute regs m).after server).rax := by
  let d := depart settings Window.ofRoute regs m
  have hrax := (Window.ofRoute d.kind).get_takeBack regs (d.after server) (r := .rax) (by decide)
  rw [if_pos (mem_taken_ofRoute d.kind (by decide))] at hrax
  refine ⟨d.kind.route, (Window.ofRoute d.kind).takeBack regs (d.after server), ?_, ?_, hrax⟩
  · rw [(Step.route_through regs).runStep_run]
  · rw [(Step.routeImage_through regs).runStep_run]
    rfl

theorem call_returns (call : Call) :
    ((runStep settings server (.call call)).run m).1 =
      .returned ((depart settings (fun _ => Window.ofCall call) call.staged m).after server).rax := by
  rw [runStep_call]

/-! ### Without registers -/

/-- What the console is told when no registers are passed. -/
def refusedText : String := "ERR: BUG: vmpl_dispatch called without registers\n"

variable {m}

theorem carryOut_refused {left : Machine} (hprint : (print settings.verbose refusedText).run.run m = (.ok (), left)) :
    (carryOut settings server (.routeImage none)).run.run m = (.ok (.answered (-22) none), left) := by
  have hrefused : (routeImage settings.verbose server none).run.run m = (.ok (-22, none), left) :=
    run_bind_ok hprint
  exact run_bind_ok hrefused

/-- **Whoever passes no registers is refused**, and the console is told. -/
theorem refused_run (hrest : settings.verbose = true → AtRest m.console) :
    let talk := settings.aloud (messageTalk m.console.value.ready (textBytes refusedText))
    let console := if settings.verbose then passed m.console m.console.value else m.console
    ∃ left, (runStep settings server (.routeImage none)).run m = (.answered (-22) none, left) ∧
      (∃ written, (∀ port, port ≠ 0x3f8 → written port = m.written port) ∧
        left = { m with written, console, history := talk.reverse ++ m.history }) ∧
      (settings.verbose = false → left = m) := by
  intro talk console
  let inner := m.withBudget settings.halts settings.pauses
  have hrun {left : Machine} (hprint : (print settings.verbose refusedText).run.run inner = (.ok (), left)) :
      (runStep settings server (.routeImage none)).run m =
        (.answered (-22) none, left.withBudget m.haltsLeft m.pausesLeft) := by
    rw [runStep_run, carryOut_refused settings server hprint]
    rfl
  cases hverbose : settings.verbose with
  | false =>
    have hnothing : talk = [] := by
      unfold talk Settings.aloud
      rw [hverbose]
      rfl
    have hconsole : console = m.console := by
      unfold console
      rw [hverbose]
      rfl
    have hprint : (print settings.verbose refusedText).run.run inner = (.ok (), inner) := by
      rw [hverbose]
      rfl
    have hdone := hrun hprint
    exact ⟨m, hdone, ⟨m.written, fun _ _ => rfl, by rw [hnothing, hconsole]; rfl⟩, fun _ => rfl⟩
  | true =>
    have hmessage : talk = messageTalk m.console.value.ready (textBytes refusedText) := by
      unfold talk Settings.aloud
      rw [hverbose]
      rfl
    have hconsole : console = passed m.console m.console.value := by
      unfold console
      rw [hverbose]
      rfl
    obtain ⟨written, hports, hprint⟩ := print_run (m := inner) (hrest hverbose) refusedText
    rw [← hverbose] at hprint
    exact ⟨_, hrun hprint, ⟨written, hports, by rw [hmessage, hconsole]; rfl⟩, nofun⟩

/-! ### What callers make of it -/

/-- **Every caller is told the same.** The signed word that comes with registers in
memory is the word that lies there in RAX. Split, that is a failure just if with a
sign it is from -4095 to -1, and then of its negation; so the negation of an errno
that a handler leaves in RAX reaches all callers as that errno. A caller without
registers gets -22, which is an errno as well; there is no more to it than a message
on the console, and in a build without messages nothing at all. A build with
messages needs its console at rest; so it is when a run starts, and after every step
and every action of a handler. -/
theorem outcomes_agree (settings : Settings) (server : Server) (m : Machine) :
    (∀ regs, ∃ way back,
      let ret := back.rax.toInt64
      let left := ((depart settings Window.ofRoute regs m).after server).rax
      ((runStep settings server (.route regs)).run m).1 = .routed way back ∧
      ((runStep settings server (.routeImage (some regs))).run m).1 = .answered ret (some back) ∧
      ret.toUInt64 = back.rax ∧ back.rax = left ∧
      (∀ e, Outcome.ofReturn back.rax = .failure ⟨e⟩ ↔ ret.toInt = -(e.toNat : Int) ∧ 1 ≤ e.toNat ∧ e.toNat ≤ 4095) ∧
      (Outcome.ofReturn back.rax = .value back.rax ↔ ¬ (-4095 ≤ ret.toInt ∧ ret.toInt ≤ -1)) ∧
      ∀ e, 1 ≤ e.toNat → e.toNat ≤ 4095 → left = -e →
        ret.toInt = -(e.toNat : Int) ∧ Outcome.ofReturn back.returned = .failure ⟨e⟩) ∧
    (∀ call e, 1 ≤ e.toNat → e.toNat ≤ 4095 →
      ((depart settings (fun _ => Window.ofCall call) call.staged m).after server).rax = -e → ∃ ret,
        ((runStep settings server (.call call)).run m).1 = .returned ret ∧ Outcome.ofReturn ret = .failure ⟨e⟩) ∧
    ((settings.verbose = true → AtRest m.console) →
      let ended := (runStep settings server (.routeImage none)).run m
      let talk := settings.aloud (messageTalk m.console.value.ready
        (textBytes "ERR: BUG: vmpl_dispatch called without registers\n"))
      let console := if settings.verbose then passed m.console m.console.value else m.console
      ended.1 = .answered (-22) none ∧ Outcome.ofReturn (-22 : Int64).toUInt64 = .failure .invalidArgument ∧
      since m.history ended.2.history = talk ∧
      (∃ written, (∀ port, port ≠ 0x3f8 → written port = m.written port) ∧
        ended.2 = { m with written, console, history := talk.reverse ++ m.history }) ∧
      (settings.verbose = false → ended.2 = m)) ∧
    (∀ selector msrs input serialReady script,
      AtRest (start settings selector msrs input serialReady script).console) ∧
    (Follows settings server → AtRest m.console →
      (∀ step, AtRest ((runStep settings server step).run m).2.console) ∧
      ∀ h action, AtRest ((perform settings server h action).run m).2.console) := by
  refine ⟨?memory, ?site, ?refused, fun _ _ _ _ _ => ⟨rfl, rfl⟩, ?rest⟩
  case memory =>
    intro regs
    obtain ⟨way, back, hroute, himage, hrax⟩ := routed_returns settings server m regs
    refine ⟨way, back, hroute, himage, UInt64.toUInt64_toInt64 back.rax, hrax, fun e => ?_, ?_, ?_⟩
    · rw [Outcome.ofReturn_eq_failure_iff]
      constructor
      · rintro ⟨hpos, hle, hret⟩
        exact ⟨hret, hpos, hle⟩
      · rintro ⟨hret, hpos, hle⟩
        exact ⟨hpos, hle, hret⟩
    · rw [Outcome.ofReturn_eq_value_iff]
      omega
    · intro e hpos hle hleft
      have hback : back.rax = -e := hrax.trans hleft
      have hreturned : back.returned = -e := hback
      rw [hback, hreturned]
      exact ⟨toInt_toInt64_neg hpos hle, Outcome.ofReturn_neg hpos hle⟩
  case site =>
    intro call e hpos hle hleft
    refine ⟨-e, ?_, Outcome.ofReturn_neg hpos hle⟩
    rw [call_returns, hleft]
  case refused =>
    intro hrest ended talk console
    obtain ⟨left, hrun, ⟨written, hports, hleft⟩, hquiet⟩ := refused_run settings server hrest
    have hended : ended = (.answered (-22) none, left) := hrun
    rw [hended]
    refine ⟨rfl, by decide, ?_, ⟨written, hports, hleft⟩, hquiet⟩
    have hhistory : left.history = talk.reverse ++ m.history := by
      rw [hleft]
      rfl
    rw [hhistory, since_append, List.reverse_reverse]
  case rest =>
    intro hserver hfree
    exact ⟨fun step => ((kept_atRest settings).runStep hserver.atRest step m m ⟨rfl, hfree⟩).2.2,
      fun h action => ((kept_atRest settings).perform hserver.atRest h action m m ⟨rfl, hfree⟩).2.2⟩

/-- A handler runs a call without registers, and leaves what it is told: the errno
reaches who is in ring 0, with a sign and without one. -/
theorem outcomes_agree_passed_on :
    let settings : Settings := ⟨true, 1, 1, 0x400000⟩
    let regs := Registers.stage 39 []
    let m := start settings 0x10 [] [] false [[.run (.routeImage none), .register (.take .rax .rax)]]
    ∃ back, ((runStep settings (handle settings) (.routeImage (some regs))).run m).1 = .answered (-22) (some back) ∧
      Outcome.ofReturn back.rax = .failure .invalidArgument ∧
      ((runStep settings (handle settings) (.routeImage none)).run m).1 = .answered (-22) none := by
  intro settings regs m
  obtain ⟨hmemory, -, hrefused, -⟩ := outcomes_agree settings (handle settings) m
  obtain ⟨way, back, -, himage, -, hleft, hfailure, -⟩ := hmemory regs
  have hrax : back.rax = -22 := by
    rw [hleft]
    decide +kernel
  rw [hrax] at himage
  exact ⟨back, himage, (hfailure 22).mpr (by rw [hrax]; decide +kernel), (hrefused fun _ => ⟨rfl, rfl⟩).1⟩

end Machine
end SyscallGate
