/-
# A build without messages does the same

A run that talks to the console is followed, step by step, by the run of a build
without messages: what each step comes to is the same, and so is what happens,
but for the talks (`reports_counterpart`). The two machines differ in the
console, in the bytes of the ports and in their histories, and nothing else ever
looks there (`mutedSince`). That what happens in the talking run is told in
whole talks, and that its console is what the events make of it, is part of the
same relation (`Counterpart`): whether a talk can be had depends on it.

Key definitions: `Machine.untold`, `Machine.Report.muted`, `Machine.mutedSince`,
`Machine.Counterpart`.
Key theorems: `Machine.kept_counterparts`, `Machine.report_counterpart`,
`Machine.reports_counterpart`.
-/
import SyscallGate.Proofs.Machine.Requests
import SyscallGate.Proofs.Machine.Talks

namespace SyscallGate
namespace Machine

/-- What happened apart from talks. -/
def untold (events : List Event) : List Event := events.filter fun event => !event.isTalk

theorem untold_append (events later : List Event) : untold (events ++ later) = untold events ++ untold later :=
  List.filter_append events later

theorem untold_talk {answers : UInt8 → Prop} {ready now : Bool} {talk : List Event}
    (h : Talk answers ready talk now) : untold talk = [] :=
  List.filter_eq_nil_iff.mpr fun event hevent => by rw [h.isTalk event hevent]; decide

theorem untold_regular {event : Event} (h : event.isRegular) : untold [event] = [event] := by
  rw [untold, List.filter_singleton, Event.not_isTalk_of_isRegular h]
  rfl

/-- The report of a step that did the same without talking. -/
def Report.muted (report : Report) : Report := { report with events := untold report.events }

/-- The machine that did the same since `origin`, without talking. -/
def mutedSince (origin : Machine) (events : List Event) (m : Machine) : Machine :=
  { m with
    console := origin.console
    input := origin.input
    written := origin.written
    history := (untold events).reverse ++ origin.history }

/-- A machine on which these events happened since `origin`, and the one that did
the same without talking. -/
structure Counterpart (answers : UInt8 → Prop) (origin : Machine) (events : List Event) (m n : Machine) : Prop where
  rest : AtRest m.console
  input : ∀ byte ∈ m.input, answers byte
  told : Told answers origin.console.value.ready events m.console.value.ready
  console : m.console = replayConsole origin.console events
  history : m.history = events.reverse ++ origin.history
  muted : n = mutedSince origin events m

variable {answers : UInt8 → Prop} {origin : Machine}

namespace Counterpart

variable {events : List Event} {m n : Machine}

theorem refl (hrest : AtRest origin.console) (hinput : ∀ byte ∈ origin.input, answers byte) :
    Counterpart answers origin [] origin origin where
  rest := hrest
  input := hinput
  told := .nothing
  console := rfl
  history := rfl
  muted := rfl

variable (h : Counterpart answers origin events m n)

include h

/-- What no talk looks at may change, on both sides in the same way. -/
theorem map (f : Machine → Machine) (hinput : (f m).input = m.input) (hconsole : (f m).console = m.console)
    (hhistory : (f m).history = m.history)
    (hmuted : f (mutedSince origin events m) = mutedSince origin events (f m)) :
    Counterpart answers origin events (f m) (f n) where
  rest := hconsole ▸ h.rest
  input := hinput ▸ h.input
  told := hconsole ▸ h.told
  console := hconsole.trans h.console
  history := hhistory.trans h.history
  muted := (congrArg f h.muted).trans hmuted

theorem next {event : Event} (hregular : event.isRegular) :
    Counterpart answers origin (events ++ [event]) (m.recording event) (n.recording event) where
  rest := h.rest
  input := h.input
  told := h.told.append (.event hregular .nothing)
  console := by
    rw [replayConsole_append, ← h.console]
    exact (consoleAfter_of_isRegular hregular m.console).symm
  history := by
    rw [List.reverse_append]
    exact congrArg (event :: ·) h.history
  muted := by
    rw [h.muted, mutedSince, mutedSince, untold_append, untold_regular hregular, List.reverse_append]
    rfl

/-- One more talk, on one side only. -/
theorem talk {talk : List Event} {now : Bool} (htalk : Talk answers m.console.value.ready talk now)
    {input : List UInt8} (hinput : ∀ byte ∈ input, answers byte) (written : UInt16 → UInt8) :
    Counterpart answers origin (events ++ talk)
      { m with input, written, console := replayConsole m.console talk, history := talk.reverse ++ m.history } n := by
  have htold : Told answers m.console.value.ready talk now := List.append_nil talk ▸ .talk htalk .nothing
  obtain ⟨hrest, hready⟩ := htold.atRest h.rest rfl
  exact {
    rest := hrest
    input := hinput
    told := hready ▸ h.told.append htold
    console := by rw [replayConsole_append, ← h.console]
    history := by rw [List.reverse_append, List.append_assoc, ← h.history]
    muted := by
      rw [h.muted, mutedSince, mutedSince, untold_append, untold_talk htalk, List.append_nil] }

end Counterpart

/-- Two machines, of which one did without talking what the other did. -/
def Counterparts (answers : UInt8 → Prop) (origin m n : Machine) : Prop :=
  ∃ events, Counterpart answers origin events m n

theorem Counterpart.step {events : List Event} {m n : Machine} (h : Counterpart answers origin events m n)
    (event : Event) (hregular : event.isRegular) (f : Machine → Machine)
    (hinput : ∀ m, (f m).input = m.input) (hconsole : ∀ m, (f m).console = m.console)
    (hhistory : ∀ m, (f m).history = m.history)
    (hmuted : ∀ events m, f (mutedSince origin events m) = mutedSince origin events (f m)) :
    Counterparts answers origin (f (m.recording event)) (f (n.recording event)) :=
  ⟨_, (h.next hregular).map f (hinput _) (hconsole _) (hhistory _) (hmuted _ _)⟩

theorem lockstep_record {event : Event} (hregular : event.isRegular) :
    Lockstep (Counterparts answers origin) (record event) (record event) :=
  fun _ _ ⟨_, h⟩ => ⟨rfl, _, h.next hregular⟩

theorem plain_counterparts : Plain (Counterparts answers origin) where
  haltsLeft := by rintro m n ⟨_, h⟩; rw [h.muted]; rfl
  pausesLeft := by rintro m n ⟨_, h⟩; rw [h.muted]; rfl
  script := by rintro m n ⟨_, h⟩; rw [h.muted]; rfl
  setHalts := by
    rintro m n haltsLeft ⟨events, h⟩
    exact ⟨events, h.map ({ · with haltsLeft }) rfl rfl rfl rfl⟩
  setPauses := by
    rintro m n pausesLeft ⟨events, h⟩
    exact ⟨events, h.map ({ · with pausesLeft }) rfl rfl rfl rfl⟩
  halted := lockstep_record rfl
  paused := lockstep_record rfl
  entered := lockstep_record rfl
  nextHandler := by
    rintro m n ⟨events, h⟩
    have hscript : n.script = m.script := by rw [h.muted]; rfl
    have hnext (m : Machine) : nextHandler.run m = (m.script.head?, { m with script := m.script.tail }) := by
      rcases m with ⟨_, _, _, _, _, _ | _, _, _, _⟩ <;> rfl
    rw [hnext, hnext, hscript]
    exact ⟨rfl, events, h.map (fun n => { n with script := m.script.tail }) rfl rfl rfl rfl⟩
  setSelector selector := fun m n ⟨_, h⟩ =>
    ⟨rfl, h.step (.setSelector selector) rfl ({ · with selector }) (fun _ => rfl) (fun _ => rfl)
      (fun _ => rfl) fun _ _ => rfl⟩
  setMsr msr value := fun m n ⟨_, h⟩ =>
    ⟨rfl, h.step (.setMsr msr value) rfl (fun m => { m with msrs := assign m.msrs msr value })
      (fun _ => rfl) (fun _ => rfl) (fun _ => rfl) fun _ _ => rfl⟩
  readSelector := by
    rintro m n ⟨events, h⟩
    have hsame : n.selector = m.selector := by rw [h.muted]; rfl
    have hread (m : Machine) : readSelector.run m = (m.selector, m.recording (.readSelector m.selector)) := rfl
    rw [hread, hread, hsame]
    exact ⟨rfl, _, h.next rfl⟩
  readMsr msr := by
    rintro m n ⟨events, h⟩
    have hsame : n.msrs = m.msrs := by rw [h.muted]; rfl
    rw [readMsr_run, readMsr_run, hsame]
    exact ⟨rfl, _, h.next rfl⟩
  writeMsr msr value := by
    rintro m n ⟨_, h⟩
    rw [writeMsr_run, writeMsr_run]
    exact ⟨rfl, h.step (.writeMsr msr value) rfl (fun m => { m with msrs := assign m.msrs msr value })
      (fun _ => rfl) (fun _ => rfl) (fun _ => rfl) fun _ _ => rfl⟩

/-- **A build without messages keeps up with any other.** The line control is
answered with what was put there just before, or with a byte of the input. -/
theorem kept_counterparts (settings : Settings) (hanswer : answers SerialPort.eightBits) :
    Kept (Counterparts answers origin) settings settings.muted := by
  refine plain_counterparts.kept_of_exit rfl rfl rfl (fun _ _ _ => lockstep_record rfl) ?leave ?print ?setUpConsole
  case leave =>
    intro server step n
    refine lockstep_record ?_
    rw [Event.isRegular, runStep_faultless]
    rfl
  case print =>
    intro text m n h
    cases hverbose : settings.verbose with
    | false => exact ⟨rfl, h⟩
    | true =>
      obtain ⟨events, h⟩ := h
      obtain ⟨written, -, hrun⟩ := print_run h.rest text
      rw [hrun, ← replayConsole_messageTalk m.console m.console.value.ready (textBytes text)]
      exact ⟨rfl, _, h.talk (.message _) h.input written⟩
  case setUpConsole =>
    intro m n h
    cases hverbose : settings.verbose with
    | false => exact ⟨rfl, h⟩
    | true =>
      obtain ⟨events, h⟩ := h
      obtain ⟨control, input, written, hrun, hfound⟩ := setUpConsole_run h.rest
      have hanswers : ∀ byte ∈ control :: input, answers byte := fun byte hbyte =>
        (hfound byte hbyte).elim (fun h3 => h3 ▸ hanswer) (h.input byte)
      rw [hrun, ← replayConsole_setUpTalk m.console control]
      exact ⟨rfl, _, h.talk (.setUp (hanswers control List.mem_cons_self))
        (fun byte hbyte => hanswers byte (List.mem_cons_of_mem _ hbyte)) written⟩

/-! ### Runs -/

variable (settings : Settings) (hanswer : answers SerialPort.eightBits)

include hanswer

theorem report_counterpart {events : List Event} {m n : Machine} (h : Counterpart answers origin events m n)
    (step : Step) :
    ((report settings.muted step).run n).1 = ((report settings step).run m).1.muted ∧
      ((report settings step).run m).1.result.isFault = false ∧
      Counterpart answers origin (events ++ ((report settings step).run m).1.events)
        ((report settings step).run m).2 ((report settings.muted step).run n).2 := by
  have k : Kept (Counterparts answers origin) settings settings.muted := kept_counterparts settings hanswer
  obtain ⟨hresult, reached, hreached⟩ := k.runStep k.handle step m n ⟨events, h⟩
  have haccount := report_account settings step m
  set reported := ((report settings step).run m).1.events
  -- the events since `origin` are those until now, and those of the report
  have hevents : reached = events ++ reported := by
    have hboth : reached.reverse ++ origin.history = reported.reverse ++ (events.reverse ++ origin.history) := by
      rw [← h.history]
      exact hreached.history.symm.trans haccount.history
    rw [← List.append_assoc, List.append_left_inj, ← List.reverse_append, List.reverse_inj] at hboth
    exact hboth
  subst hevents
  refine ⟨?_, ?_, hreached⟩
  · have hmuted : since n.history ((runStep settings.muted (handle settings.muted) step).run n).2.history =
        untold reported := by
      rw [hreached.muted, h.muted, mutedSince, mutedSince, untold_append, List.reverse_append, List.append_assoc,
        since_append, List.reverse_reverse]
    exact congrArg₂ Report.mk hresult.symm hmuted
  · exact (congrArg (·.isFault) hresult).trans (runStep_faultless _ settings step n)

theorem reports_counterpart : ∀ (steps : List Step) {events : List Event} {m n : Machine},
    Counterpart answers origin events m n →
    run settings.muted n steps = (run settings m steps).map Report.muted ∧
      (∀ report ∈ run settings m steps, report.result.isFault = false) ∧
      Counterpart answers origin (events ++ (run settings m steps).flatMap (·.events))
        ((reports settings steps).run m).2 ((reports settings.muted steps).run n).2
  | [], events, m, _, h => by
    have hnone : events ++ (run settings m []).flatMap (·.events) = events := List.append_nil events
    rw [hnone]
    exact ⟨rfl, List.forall_mem_nil _, h⟩
  | step :: steps, events, m, n, h => by
    obtain ⟨hfirst, hfine, hnext⟩ := report_counterpart settings hanswer h step
    obtain ⟨hrest, hallfine, hlast⟩ := reports_counterpart steps hnext
    have hrun (settings : Settings) (m : Machine) : run settings m (step :: steps) =
        ((report settings step).run m).1 :: run settings ((report settings step).run m).2 steps := rfl
    rw [hrun, hrun, hfirst, hrest, List.map_cons, List.flatMap_cons, ← List.append_assoc]
    exact ⟨rfl, List.forall_mem_cons.mpr ⟨hfine, hallfine⟩, hlast⟩

end Machine
end SyscallGate
