/-
# What a step does itself

While a step is served, handlers change the machine, and run steps of their own
between an `enter` and a `leave`. What is left of its events without those is
the step's own (`own`), however deep steps nest: whoever serves it leaves no
event but changes from outside (`serve_aside`). So what is said of a step's own
events needs to be looked at for single operations only. `Tenor` and `Covers` are
what that takes, and `runStep_own` is what it gives.

Key definitions: `Machine.own`, `Machine.Did`, `Machine.Aside`,
`Machine.Tenor`, `Machine.Covers`.
Key theorems: `Machine.serve_aside`, `Machine.runStep_own`.
-/
import SyscallGate.Proofs.Machine.Console
import SyscallGate.Proofs.Machine.Replay

namespace SyscallGate
namespace Machine

/-- Whether a step begins or ends in the middle of another. -/
def Event.isBracket : Event → Bool
  | enter | leave _ => true
  | _ => false

/-- Whether an event is a change from outside. -/
def Event.isChange : Event → Bool
  | setSelector _ | setMsr _ _ => true
  | _ => false

/-- Whether an event is of an operation that neither waits nor writes. -/
def Event.isMild : Event → Bool
  | readSelector _ | readMsr _ _ | exit _ _ _ | halt | setSelector _ | setMsr _ _ => true
  | _ => false

theorem Event.not_isBracket_of_isMild {event : Event} (h : event.isMild) : event.isBracket = false := by
  cases event <;> first | rfl | cases h

theorem Event.isMild_of_isChange {event : Event} (h : event.isChange) : event.isMild := by
  cases event <;> first | rfl | cases h

/-- The events that are in the middle of no other step, when that many steps are
under way. -/
def ownAt (depth : Nat) : List Event → List Event
  | [] => []
  | .enter :: later => ownAt (depth + 1) later
  | .leave _ :: later => ownAt (depth - 1) later
  | event :: later => (if depth = 0 then [event] else []) ++ ownAt depth later

/-- The events of a step itself. -/
def own (events : List Event) : List Event := ownAt 0 events

/-- Events after which as many steps are under way as before, with those that are
in the middle of no other. -/
def Closed (events self : List Event) : Prop :=
  ∀ depth later, ownAt depth (events ++ later) = (if depth = 0 then self else []) ++ ownAt depth later

namespace Closed

variable {events self more moreSelf : List Event}

theorem nothing : Closed [] [] := by
  intro depth later
  simp

theorem append (h : Closed events self) (hmore : Closed more moreSelf) :
    Closed (events ++ more) (self ++ moreSelf) := by
  intro depth later
  rw [List.append_assoc, h, hmore]
  by_cases hdepth : depth = 0
  · rw [if_pos hdepth, if_pos hdepth, if_pos hdepth, List.append_assoc]
  · rw [if_neg hdepth, if_neg hdepth, if_neg hdepth]
    rfl

theorem event {event : Event} (h : event.isBracket = false) : Closed [event] [event] := by
  intro depth later
  cases event <;> first | rfl | cases h

/-- Where no step begins or ends, every event is of the one that is under way. -/
theorem of_forall (h : ∀ event ∈ events, event.isBracket = false) : Closed events events := by
  induction events with
  | nil => exact .nothing
  | cons event events ih =>
    exact (Closed.event (h event List.mem_cons_self)).append
      (ih fun event hevent => h event (List.mem_cons_of_mem _ hevent))

/-- A whole step in the middle of another is not of that. -/
theorem nested (h : Closed events self) (result : Result) : Closed (.enter :: events ++ [.leave result]) [] := by
  intro depth later
  have hinner : ownAt depth (.enter :: events ++ [.leave result] ++ later) =
      ownAt (depth + 1) (events ++ .leave result :: later) := by
    rw [List.cons_append, List.cons_append, List.append_assoc]
    rfl
  rw [hinner, h, if_neg (Nat.succ_ne_zero depth), ite_self]
  rfl

theorem own_eq (h : Closed events self) : own events = self := by
  have hall := h 0 []
  rw [List.append_nil, if_pos rfl] at hall
  exact hall.trans (List.append_nil self)

end Closed

/-! ### Own events between two machines -/

/-- Between these machines there are whole steps, and these events beside them. -/
def Did (m : Machine) (self : List Event) (m' : Machine) : Prop :=
  ∃ events, m'.history = events.reverse ++ m.history ∧ Closed events self

namespace Did

variable {a b c : Machine} {self more : List Event}

theorem refl (m : Machine) : Did m [] m := ⟨[], rfl, .nothing⟩

theorem append (h : Did a self b) (hmore : Did b more c) : Did a (self ++ more) c := by
  obtain ⟨events, hevents, hself⟩ := h
  obtain ⟨later, hlater, hrest⟩ := hmore
  refine ⟨events ++ later, ?_, hself.append hrest⟩
  rw [hlater, hevents, List.reverse_append, List.append_assoc]

theorem event {event : Event} (hbracket : event.isBracket = false) (h : b.history = event :: a.history) :
    Did a [event] b := ⟨[event], h, .event hbracket⟩

theorem cons {event : Event} (hbracket : event.isBracket = false) (h : b.history = event :: a.history)
    (hmore : Did b more c) : Did a (event :: more) c := (Did.event hbracket h).append hmore

theorem nested (h : Did (a.recording .enter) self b) (result : Result) :
    Did a [] (b.recording (.leave result)) := by
  obtain ⟨events, hevents, hself⟩ := h
  refine ⟨.enter :: events ++ [.leave result], ?_, hself.nested result⟩
  have hall : (b.recording (.leave result)).history = .leave result :: (events.reverse ++ .enter :: a.history) :=
    congrArg (Event.leave result :: ·) hevents
  simp [hall]

theorem own_since (h : Did a self b) : own (since a.history b.history) = self := by
  obtain ⟨events, hevents, hself⟩ := h
  rw [hevents, since_append, List.reverse_reverse]
  exact hself.own_eq

end Did

theorem request_did (value : UInt64) (purpose : Purpose) (shown : List (Register × UInt64)) (m : Machine) :
    Did m [.writeMsr Ghcb.msr value, .exit .vmgexit purpose shown]
      (((writeMsr Ghcb.msr value).run m).2.recording (.exit .vmgexit purpose shown)) := by
  have hwritten : ((writeMsr Ghcb.msr value).run m).2.history = .writeMsr Ghcb.msr value :: m.history := by
    rw [writeMsr_run]
    rfl
  exact .cons rfl hwritten (.event rfl rfl)

/-! ### Properties of own events -/

/-- A property that operations have, and that goes through sequences. A request
that is written counts together with its exit. -/
structure Tenor (G : List Event → Prop) : Prop where
  nothing : G []
  append : ∀ {self more}, G self → G more → G (self ++ more)
  mild : ∀ {event : Event}, event.isMild → G [event]
  request : ∀ value purpose shown, G [.writeMsr Ghcb.msr value, .exit .vmgexit purpose shown]

theorem Tenor.any : Tenor fun _ => True := ⟨trivial, fun _ _ => trivial, fun _ => trivial, fun _ _ _ => trivial⟩

/-- A property that also goes for what a step does beside operations: it may wait,
write an MSR for its caller, or talk. -/
structure Covers (G : List Event → Prop) (step : Step) : Prop where
  pause : step = .pause → G [.pause]
  write : ∀ msr value, step = .writeMsr msr value → G [.writeMsr msr value]
  talk : step.talks → ∀ event : Event, event.isTalk → G [event]
  spin : step.talks → G [.spin]

theorem Covers.any (step : Step) : Covers (fun _ => True) step :=
  ⟨fun _ => trivial, fun _ _ _ => trivial, fun _ _ _ => trivial, fun _ => trivial⟩

theorem Tenor.of_forall {G : List Event → Prop} (t : Tenor G) {self : List Event}
    (h : ∀ event ∈ self, G [event]) : G self := by
  induction self with
  | nil => exact t.nothing
  | cons event self ih =>
    exact t.append (h event List.mem_cons_self) (ih fun event hevent => h event (List.mem_cons_of_mem _ hevent))

/-- One machine on both sides, and own events with a property since `origin`. -/
def Conducted (G : List Event → Prop) (origin m n : Machine) : Prop :=
  n = m ∧ ∃ self, Did origin self m ∧ G self

/-- Changes from outside, and nothing else. -/
def Changes (self : List Event) : Prop := ∀ event ∈ self, event.isChange

theorem Changes.append {self more : List Event} (h : Changes self) (hmore : Changes more) :
    Changes (self ++ more) := List.forall_mem_append.mpr ⟨h, hmore⟩

/-- Whoever serves a step leaves no event beside whole steps, but changes from
outside. -/
def Aside (server : Server) : Prop :=
  ∀ regs m, ∃ self, Did m self ((server regs).run m).2 ∧ Changes self

section Conducted

variable {G : List Event → Prop} {origin : Machine}

section Append

variable (happend : ∀ {self more : List Event}, G self → G more → G (self ++ more))

include happend

theorem Conducted.next {m m' : Machine} {self : List Event} (h : Conducted G origin m m) (hdid : Did m self m')
    (hself : G self) : Conducted G origin m' m' := by
  obtain ⟨-, before, hbefore, hG⟩ := h
  exact ⟨rfl, before ++ self, hbefore.append hdid, happend hG hself⟩

/-- Code whose own events have a property that goes through sequences. -/
theorem lockstep_of_did {α : Type} {x : StateM Machine α}
    (hx : ∀ m, ∃ self, Did m self (x.run m).2 ∧ G self) : Lockstep (Conducted G origin) x x := by
  rintro _ m ⟨rfl, h⟩
  obtain ⟨self, hdid, hself⟩ := hx m
  exact ⟨rfl, Conducted.next happend ⟨rfl, h⟩ hdid hself⟩

end Append

variable (t : Tenor G)

include t

theorem lockstep_of_event {α : Type} {x : StateM Machine α} (event : Machine → Event)
    (hbracket : ∀ m, (event m).isBracket = false) (hevent : ∀ m, G [event m])
    (hhistory : ∀ m, (x.run m).2.history = event m :: m.history) : Lockstep (Conducted G origin) x x :=
  lockstep_of_did t.append fun m => ⟨[event m], .event (hbracket m) (hhistory m), hevent m⟩

theorem companions_of_aside {server : Server} (h : Aside server) :
    Companions (Conducted G origin) server server := by
  intro regs
  refine lockstep_of_did t.append fun m => ?_
  obtain ⟨self, hdid, hself⟩ := h regs m
  exact ⟨self, hdid, t.of_forall fun event hevent => t.mild (Event.isMild_of_isChange (hself event hevent))⟩

theorem approach_did (shown : List (Register × UInt64)) (m : Machine) : ∃ self,
    Did m self ((approach.run m).2.recording (.exit (approach.run m).1 .call shown)) ∧ G self := by
  have hread : Did m [.readSelector m.selector] (m.recording (.readSelector m.selector)) := .event rfl rfl
  rw [approach_run]
  by_cases hring : m.selector &&& 3 = 0
  · rw [if_pos hring]
    exact ⟨_, hread.append (request_did 0x16 .call shown _), t.append (t.mild rfl) (t.request _ _ _)⟩
  · rw [if_neg hring]
    exact ⟨_, hread.append (.event rfl rfl), t.append (t.mild rfl) (t.mild rfl)⟩

section Leaving

variable {server server' : Server} (hs : Companions (Conducted G origin) server server')

include hs

omit t in
theorem leaveFor_conducted {m : Machine} {kind : Exit} {purpose : Purpose} (window : Window) (regs : Registers)
    (h : ∀ shown, Conducted G origin (m.recording (.exit kind purpose shown))
      (m.recording (.exit kind purpose shown))) :
    ((leaveFor server kind purpose window regs).run m).1 =
        ((leaveFor server' kind purpose window regs).run m).1 ∧
      Conducted G origin ((leaveFor server kind purpose window regs).run m).2
        ((leaveFor server' kind purpose window regs).run m).2 := by
  obtain ⟨hregs, hafter⟩ := hs (kind.handOver (window.look regs)) _ _
    (h (window.shown.map fun r => (r, regs.get r)))
  exact ⟨congrArg (window.takeBack regs) hregs, hafter⟩

theorem gate_conducted (window : Exit → Window) (regs : Registers) :
    Lockstep (Conducted G origin) (gate server window regs) (gate server' window regs) := by
  rintro _ m ⟨rfl, h⟩
  let kind := (approach.run m).1
  have hexit : ∀ shown, Conducted G origin ((approach.run m).2.recording (.exit kind .call shown))
      ((approach.run m).2.recording (.exit kind .call shown)) := by
    intro shown
    obtain ⟨self, hdid, hself⟩ := approach_did t shown m
    exact Conducted.next t.append ⟨rfl, h⟩ hdid hself
  obtain ⟨hregs, hafter⟩ := leaveFor_conducted hs (window kind) regs hexit
  exact ⟨congrArg (Prod.mk kind) hregs, hafter⟩

theorem terminate_conducted {α : Type} (reasonSet reasonCode : UInt64)
    (hhalt : Lockstep (Conducted G origin) halt.run halt.run) :
    Lockstep (Conducted G origin) (terminate server reasonSet reasonCode : Exec α).run
      (terminate server' reasonSet reasonCode : Exec α).run := by
  rintro _ m ⟨rfl, h⟩
  let requested := ((writeMsr Ghcb.msr (Ghcb.terminateRequest reasonSet reasonCode)).run m).2
  have hrun (server : Server) : (terminate server reasonSet reasonCode : Exec α).run.run m =
      haltForever.run.run ((vmgexit server (.terminate reasonSet reasonCode)).run requested).2 := rfl
  have hexit : ∀ shown, Conducted G origin
      (requested.recording (.exit .vmgexit (.terminate reasonSet reasonCode) shown))
      (requested.recording (.exit .vmgexit (.terminate reasonSet reasonCode) shown)) := fun shown =>
    Conducted.next t.append ⟨rfl, h⟩ (request_did _ _ shown m) (t.request _ _ _)
  have hleft := (leaveFor_conducted hs Window.closed Registers.zero hexit).2
  rw [hrun, hrun]
  exact lockstep_haltForever hhalt (fun h => by rw [h.1]) _ _ hleft

theorem request_conducted :
    Lockstep (Conducted G origin) (vmgexit server .request) (vmgexit server' .request) := by
  rintro _ m ⟨rfl, h⟩
  have hexit : ∀ shown, Conducted G origin (m.recording (.exit .vmgexit .request shown))
      (m.recording (.exit .vmgexit .request shown)) := fun shown =>
    Conducted.next t.append ⟨rfl, h⟩ (.event rfl rfl) (t.mild rfl)
  exact ⟨rfl, (leaveFor_conducted hs Window.closed Registers.zero hexit).2⟩

end Leaving

theorem operations_conducted : Operations (Conducted G origin) := by
  have hmild {α : Type} {x : StateM Machine α} (event : Machine → Event) (h : ∀ m, (event m).isMild)
      (hhistory : ∀ m, (x.run m).2.history = event m :: m.history) : Lockstep (Conducted G origin) x x :=
    lockstep_of_event t event (fun m => Event.not_isBracket_of_isMild (h m)) (fun m => t.mild (h m)) hhistory
  have hhalt : Lockstep (Conducted G origin) halt.run halt.run :=
    lockstep_halt (hmild (fun _ => .halt) (fun _ => rfl) fun _ => rfl) (fun h => by rw [h.1]) fun _ ⟨hsame, h⟩ =>
      ⟨by rw [hsame], h⟩
  exact {
    setSelector := fun selector => hmild (fun _ => .setSelector selector) (fun _ => rfl) fun _ => rfl
    setMsr := fun msr value => hmild (fun _ => .setMsr msr value) (fun _ => rfl) fun _ => rfl
    readSelector := hmild (fun m => .readSelector m.selector) (fun _ => rfl) fun _ => rfl
    readMsr := fun msr => hmild (fun m => .readMsr msr (m.msrs msr)) (fun _ => rfl) fun _ => rfl
    halt := hhalt
    gate := fun hs => gate_conducted t hs
    terminate := fun hs _ reasonSet reasonCode => terminate_conducted t hs reasonSet reasonCode hhalt
    request := fun hs => request_conducted t hs }

theorem talking_conducted (htalk : ∀ event : Event, event.isTalk → G [event]) (hspin : G [.spin]) :
    Talking (Conducted G origin) where
  pausesLeft h := by rw [h.1]
  console h := by rw [h.1]
  setPauses := fun _ ⟨hsame, h⟩ => ⟨by rw [hsame], h⟩
  setConsole := fun _ ⟨hsame, h⟩ => ⟨by rw [hsame], h⟩
  spin := lockstep_of_event t (fun _ => .spin) (fun _ => rfl) (fun _ => hspin) fun _ => rfl
  note event _ hevent := lockstep_of_event t (fun _ => event)
    (fun _ => by cases event <;> first | rfl | cases hevent) (fun _ => htalk event hevent) fun _ => rfl
  portIn port := by
    refine lockstep_of_did t.append fun m => ?_
    obtain ⟨byte, input, hread, -⟩ := portIn_run port m
    rw [hread]
    exact ⟨_, .event rfl rfl, htalk (.input port byte) rfl⟩
  portOut port byte := lockstep_of_event t (fun _ => .output port byte) (fun _ => rfl)
    (fun _ => htalk (.output port byte) rfl) fun _ => rfl

end Conducted

/-! ### Steps -/

section Steps

variable (settings : Settings) {G : List Event → Prop} (t : Tenor G)

include t

/-- A step's own events have a property that its operations have, and that covers
the step. -/
theorem carryOut_conducted {server : Server} (haside : Aside server) {step : Step} (hcovers : Covers G step)
    (m : Machine) :
    ∃ self, Did m self ((carryOut settings server step).run.run m).2 ∧ G self := by
  have hkept : Lockstep (Conducted G m) (carryOut settings server step).run (carryOut settings server step).run := by
    refine (operations_conducted t).carryOut (companions_of_aside t haside) rfl step (fun hstep => ?pause)
      (fun msr value hstep => ?write) fun htalks => ?talk
    case pause =>
      have hrecord : Lockstep (Conducted G m) (record .pause) (record .pause) :=
        lockstep_of_event t (fun _ => .pause) (fun _ => rfl) (fun _ => hcovers.pause hstep) fun _ => rfl
      exact lockstep_pauseAs hrecord (fun h => by rw [h.1]) fun _ ⟨hsame, h⟩ => ⟨by rw [hsame], h⟩
    case write =>
      exact lockstep_of_event t (fun _ => .writeMsr msr value) (fun _ => rfl) (fun _ => hcovers.write msr value hstep)
        fun m => by rw [writeMsr_run]; rfl
    case talk =>
      have hconsole : Talking (Conducted G m) := talking_conducted t (hcovers.talk htalks) (hcovers.spin htalks)
      exact ⟨hconsole.print settings.verbose, hconsole.setUpConsole settings.verbose⟩
  exact (hkept m m ⟨rfl, [], .refl m, t.nothing⟩).2.2

/-- The budget is no event. -/
theorem runStep_conducted {server : Server} (haside : Aside server) {step : Step} (hcovers : Covers G step)
    (m : Machine) :
    ∃ self, Did m self ((runStep settings server step).run m).2 ∧ G self := by
  obtain ⟨self, hdid, hself⟩ := carryOut_conducted settings t haside hcovers
    (m.withBudget settings.halts settings.pauses)
  rw [runStep_run]
  exact ⟨self, hdid, hself⟩

omit t in
/-- The steps that a handler runs are whole steps, and the rest it does is from
outside. -/
theorem perform_aside {server : Server} (haside : Aside server) {origin : Machine} (h : Handling)
    (action : Action) :
    Lockstep (Conducted Changes origin) (perform settings server h action) (perform settings server h action) := by
  refine lockstep_of_did Changes.append fun m => ?_
  cases action with
  | register action => exact ⟨[], .refl m, List.forall_mem_nil _⟩
  | selector selector => exact ⟨[.setSelector selector], .event rfl rfl, List.forall_mem_singleton.mpr rfl⟩
  | msr msr value => exact ⟨[.setMsr msr value], .event rfl rfl, List.forall_mem_singleton.mpr rfl⟩
  | run step =>
    obtain ⟨self, hdid, -⟩ := runStep_conducted settings .any haside (.any step) (m.recording .enter)
    exact ⟨[], hdid.nested _, List.forall_mem_nil _⟩

omit t in
/-- **Whoever follows the script stands aside**, by induction on how deep steps
may nest. -/
theorem serve_aside : ∀ depth : Nat, Aside (serve settings depth)
  | 0, _, m => ⟨[], .refl m, List.forall_mem_nil _⟩
  | depth + 1, regs, m => by
    have hnext : Lockstep (Conducted Changes m) nextHandler nextHandler := by
      rintro _ ⟨_, _, _, _, _, _ | _, _, _, _⟩ ⟨rfl, h⟩ <;> exact ⟨rfl, rfl, h⟩
    have hserve : Lockstep (Conducted Changes m) (serve settings (depth + 1) regs)
        (serve settings (depth + 1) regs) := by
      refine hnext.bind fun handler => ?_
      cases handler with
      | none => exact .pure _
      | some actions =>
        exact (Lockstep.foldlM (perform_aside settings (serve_aside depth)) actions _).bind fun _ => .pure _
    exact (hserve m m ⟨rfl, [], .refl m, List.forall_mem_nil _⟩).2.2

/-- **What is said of a step's own events**, at whatever depth it is served. -/
theorem runStep_own (depth : Nat) {step : Step} (hcovers : Covers G step) (m : Machine) :
    G (own (since m.history ((runStep settings (serve settings depth) step).run m).2.history)) := by
  obtain ⟨self, hdid, hself⟩ := runStep_conducted settings t (serve_aside settings depth) hcovers m
  rw [hdid.own_since]
  exact hself

end Steps

end Machine
end SyscallGate
