/-
# The console is for readers only

What the code says on the console it does not depend on: built without messages
it comes to the same results, leaves the same machine behind, and does the same
in between, but for IN and OUT, of which there are none (`runs_alike_untold`).
On a trace, where bytes that go out together are one entry, leaving out the
entries of ports is the same as leaving out the talks among the events
(`trace_untold`).

Key definitions: `Machine.Entry.isPort`, `Machine.withoutPorts`.
Key theorems: `Machine.trace_untold`, `Machine.runs_alike_untold`.
-/
import SyscallGate.Proofs.Machine.Muted

namespace SyscallGate
namespace Machine

/-- Whether an entry is of IN or OUT. -/
def Entry.isPort : Entry → Bool
  | input _ _ | output _ _ => true
  | _ => false

/-- Entries of a trace without those of IN and OUT. -/
def withoutPorts (entries : List Entry) : List Entry := entries.filter fun entry => !entry.isPort

theorem withoutPorts_cons_port {entry : Entry} (h : entry.isPort = true) (entries : List Entry) :
    withoutPorts (entry :: entries) = withoutPorts entries :=
  List.filter_cons_of_neg (by simp [h])

theorem withoutPorts_cons_other {entry : Entry} (h : entry.isPort = false) (entries : List Entry) :
    withoutPorts (entry :: entries) = entry :: withoutPorts entries :=
  List.filter_cons_of_pos (by simp [h])

theorem Entry.join_other {entry : Entry} (h : entry.isPort = false) (rest : List Entry) :
    entry.join rest = entry :: rest := by
  cases entry <;> first | rfl | cases h

/-- Whether it joins what comes after it or not, output is left out. -/
theorem withoutPorts_join_port {entry : Entry} (h : entry.isPort = true) (rest : List Entry) :
    withoutPorts (entry.join rest) = withoutPorts rest := by
  cases entry with
  | input port byte => exact withoutPorts_cons_port rfl rest
  | output port bytes =>
    cases rest with
    | nil => rfl
    | cons next more =>
      cases next with
      | output port' bytes' =>
        rw [Entry.join]
        by_cases hport : port = port'
        · rw [if_pos hport, withoutPorts_cons_port rfl, withoutPorts_cons_port rfl]
        · rw [if_neg hport, withoutPorts_cons_port rfl]
      | _ => exact withoutPorts_cons_port rfl _
  | _ => cases h

theorem isPort_eq_isTalk {event : Event} {entry : Entry} (h : event.entry? = some entry) :
    entry.isPort = event.isTalk := by
  rcases event with _ | _ | _ | _ | _ | ⟨_, _ | _ | _, _⟩ <;> cases h <;> rfl

theorem trace_cons_none {event : Event} (h : event.entry? = none) (events : List Event) :
    trace (event :: events) = trace events := by
  rw [trace, List.filterMap_cons_none h, trace]

theorem trace_cons_some {event : Event} {entry : Entry} (h : event.entry? = some entry) (events : List Event) :
    trace (event :: events) = entry.join (trace events) := by
  rw [trace, List.filterMap_cons_some h, List.foldr_cons, trace]

/-- **Without its talks a run has the trace that is left of its own without IN
and OUT.** -/
theorem trace_untold : ∀ events : List Event, trace (untold events) = withoutPorts (trace events)
  | [] => rfl
  | event :: events => by
    have ih := trace_untold events
    cases htalk : event.isTalk with
    | true =>
      have hleft : untold (event :: events) = untold events := List.filter_cons_of_neg (by simp [htalk])
      rw [hleft, ih]
      cases hentry : event.entry? with
      | none => rw [trace_cons_none hentry]
      | some entry =>
        have hport : entry.isPort = true := (isPort_eq_isTalk hentry).trans htalk
        rw [trace_cons_some hentry, withoutPorts_join_port hport]
    | false =>
      have hkept : untold (event :: events) = event :: untold events := List.filter_cons_of_pos (by simp [htalk])
      rw [hkept]
      cases hentry : event.entry? with
      | none => rw [trace_cons_none hentry, trace_cons_none hentry, ih]
      | some entry =>
        have hother : entry.isPort = false := (isPort_eq_isTalk hentry).trans htalk
        rw [trace_cons_some hentry, trace_cons_some hentry, ih, Entry.join_other hother,
          Entry.join_other hother, withoutPorts_cons_other hother]

theorem isPort_of_mem_withoutPorts {entry : Entry} {entries : List Entry} (h : entry ∈ withoutPorts entries) :
    entry.isPort = false := by
  have hkept := (List.mem_filter.mp h).2
  simpa using hkept

/-- **The console changes nothing.** Whatever a machine starts with and whatever
steps it is given, with messages and without they come to the same results, one
by one, with the same trace but for IN and OUT, and they leave the same selector
and MSRs, and the same handlers. Without messages there is no IN and no OUT. -/
theorem runs_alike_untold (halts pauses : Nat) (entry : UInt64) (selector : UInt16) (msrs : List (UInt32 × UInt64))
    (input : List UInt8) (serialReady : Bool) (script : List (List Action)) (steps : List Step) :
    let loud : Settings := ⟨true, halts, pauses, entry⟩
    let quiet : Settings := ⟨false, halts, pauses, entry⟩
    let m := start loud selector msrs input serialReady script
    let n := start quiet selector msrs input serialReady script
    (run loud m steps).map (fun report => (report.result, withoutPorts (trace report.events))) =
        (run quiet n steps).map (fun report => (report.result, withoutPorts (trace report.events))) ∧
      (∀ report ∈ run quiet n steps, ∀ entry ∈ trace report.events, entry.isPort = false) ∧
      ((reports loud steps).run m).2.holdings = ((reports quiet steps).run n).2.holdings ∧
      ((reports loud steps).run m).2.script = ((reports quiet steps).run n).2.script := by
  intro loud quiet m n
  have hstart : Counterpart (fun _ => True) m [] m n := .refl ⟨rfl, rfl⟩ fun _ _ => trivial
  obtain ⟨hruns, -, hlast⟩ := reports_counterpart loud trivial steps hstart
  have hquiet : run quiet n steps = (run loud m steps).map Report.muted := hruns
  have hend := hlast.muted
  change ((reports quiet steps).run n).2 = _ at hend
  have htrace (report : Report) : trace report.muted.events = withoutPorts (trace report.events) :=
    trace_untold report.events
  refine ⟨?results, ?ports, ?holdings, ?script⟩
  case results =>
    rw [hquiet, List.map_map]
    refine List.map_congr_left fun report _ => ?_
    have htwice : withoutPorts (withoutPorts (trace report.events)) = withoutPorts (trace report.events) := by
      simp [withoutPorts]
    exact Prod.ext rfl ((congrArg withoutPorts (htrace report)).trans htwice).symm
  case ports =>
    intro report hreport entry hentry
    rw [hquiet] at hreport
    obtain ⟨spoken, -, rfl⟩ := List.mem_map.mp hreport
    rw [htrace] at hentry
    exact isPort_of_mem_withoutPorts hentry
  case holdings => rw [hend]; rfl
  case script => rw [hend]; rfl

end Machine
end SyscallGate
