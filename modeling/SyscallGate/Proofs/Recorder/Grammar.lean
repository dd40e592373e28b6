/-
# The grammar of what is recorded

What a run records is a sequence of groups: a class and SYSCALL, or a class, the
request and VMGEXIT, and the returns of the calls that handlers made. Nothing
gets between the parts of a group (`Unbroken`), however deep calls nest, so the
numbers of questions, requests and instructions that leave go together
(`Unbroken.counts`). Each call from outside has an answer, and its events are
those it derives from the selector in force and the handlers left
(`run_transcript`).

Key definitions: `Recorder.Unbroken`, `Recorder.Transcript`.
Key theorems: `Recorder.Derives.unbroken`, `Recorder.Unbroken.counts`,
`Recorder.answers_transcript`, `Recorder.run_answered`,
`Recorder.run_transcript`.
-/
import SyscallGate.Proofs.Recorder.Derivation

namespace SyscallGate
namespace Recorder

namespace Event

/-- Whether the class was asked for. -/
def isClassify : Event → Bool
  | classify _ _ => true
  | _ => false

/-- Whether an MSR was written. -/
def isWriteMsr : Event → Bool
  | writeMsr _ _ => true
  | _ => false

/-- Whether SYSCALL began. -/
def isSyscall : Event → Bool
  | syscall _ => true
  | _ => false

/-- Whether VMGEXIT began. -/
def isVmgexit : Event → Bool
  | vmgexit _ => true
  | _ => false

end Event

/-- Events in groups: a class comes with its request and its instruction, with
nothing in between. -/
inductive Unbroken : List Event → Prop
  | nil : Unbroken []
  | direct {selector : UInt16} {regs : Registers} {events : List Event} :
      Unbroken events → Unbroken (.classify selector .reduced :: .syscall regs :: events)
  | redirect {selector : UInt16} {regs : Registers} {events : List Event} :
      Unbroken events → Unbroken (.classify selector .mostPrivileged :: .writeMsr 0xc0010130 0x16 ::
        .vmgexit regs :: events)
  | returned {way : Route} {regs : Registers} {events : List Event} :
      Unbroken events → Unbroken (.returned way regs :: events)

theorem Unbroken.append {events events' : List Event} (h : Unbroken events) (h' : Unbroken events') :
    Unbroken (events ++ events') := by
  induction h with
  | nil => exact h'
  | direct _ ih => exact .direct ih
  | redirect _ ih => exact .redirect ih
  | returned _ ih => exact .returned ih

mutual

theorem Derives.unbroken {s s' : Standing} {regs after : Registers} {events : List Event} {way : Route} :
    Derives s regs events way after s' → Unbroken events
  | .direct _ h => .direct h.unbroken
  | .redirect _ h => .redirect h.unbroken

theorem Served.unbroken {s s' : Standing} {regs after : Registers} {events : List Event} :
    Served s regs events after s' → Unbroken events
  | .nobody => .nil
  | .handler h => h.unbroken

theorem Handled.unbroken {s s' : Standing} {h h' : Handling} {actions : List Action} {events : List Event} :
    Handled s h actions events h' s' → Unbroken events
  | .done => .nil
  | .register hh => hh.unbroken
  | .selector hh => hh.unbroken
  | .call hd hh => hd.unbroken.append (.returned hh.unbroken)
  | .again hd hh => hd.unbroken.append (.returned hh.unbroken)

end

/-- Every class belongs to one instruction that leaves, and every request to one
VMGEXIT. -/
theorem Unbroken.counts {events : List Event} (h : Unbroken events) :
    events.countP Event.isClassify = events.countP Event.isSyscall + events.countP Event.isVmgexit ∧
      events.countP Event.isWriteMsr = events.countP Event.isVmgexit := by
  induction h with
  | nil => exact ⟨rfl, rfl⟩
  | direct _ ih =>
    simp only [List.countP_cons, Event.isClassify, Event.isSyscall, Event.isVmgexit, Event.isWriteMsr]
    simp only [if_true, if_false, Bool.false_eq_true]
    omega
  | redirect _ ih =>
    simp only [List.countP_cons, Event.isClassify, Event.isSyscall, Event.isVmgexit, Event.isWriteMsr]
    simp only [if_true, if_false, Bool.false_eq_true]
    omega
  | returned _ ih => exact ih

theorem Unbroken.firstFailure {events : List Event} (h : Unbroken events) :
    firstFailure events = none := by
  induction h with
  | nil => rfl
  | direct _ ih | redirect _ ih | returned _ ih => exact ih

/-- Calls from outside with their answers, each from where the one before it
ended. -/
inductive Transcript : Standing → List Call → List Answer → Prop
  | nil {s : Standing} : Transcript s [] []
  | cons {s s' : Standing} {c : Call} {calls : List Call} {answer : Answer} {answers : List Answer} :
      Derives ⟨c.selector.getD s.selector, s.script⟩ c.regs answer.events answer.way answer.regs s' →
      Transcript s' calls answers → Transcript s (c :: calls) (answer :: answers)

theorem Transcript.unbroken {s : Standing} {calls : List Call} {answers : List Answer}
    (h : Transcript s calls answers) : Unbroken (answers.flatMap (·.events)) := by
  induction h with
  | nil => exact .nil
  | cons hd _ ih => exact hd.unbroken.append ih

variable (classifier : Classifier)

theorem answer_derives (c : Call) (r : Recorder) :
    ∃ a s, Derives ⟨c.selector.getD r.selector, r.script⟩ c.regs a.events a.way a.regs s ∧
      (answer classifier c).run r = (.ok a, r.advance s a.events) := by
  obtain ⟨events, way, after, s, hd, hrun⟩ :=
    call_derives classifier c.regs { r with selector := c.selector.getD r.selector }
  have hsince : since r.history (events.reverse ++ r.history) = events := by
    rw [since_append, List.reverse_reverse]
  refine ⟨⟨way, after, events⟩, s, hd, ?_⟩
  rw [answer, StateT.run_bind, StateT.run_modify, pure_bind, StateT.run_bind, StateT.run_get, pure_bind,
    StateT.run_bind, show _ = pure _ from hrun, pure_bind, StateT.run_bind, StateT.run_get, pure_bind]
  simp only [advance, hsince, hd.unbroken.firstFailure]
  rfl

theorem answers_cons_run {c : Call} {calls : List Call} {a : Answer} {as : List Answer} {r t last : Recorder}
    (hfirst : (answer classifier c).run r = (.ok a, t))
    (hrest : (answers classifier calls).run t = (as.map .ok, last)) :
    (answers classifier (c :: calls)).run r = ((a :: as).map .ok, last) := by
  rw [answers, StateT.run_bind, show _ = pure _ from hfirst, pure_bind, StateT.run_bind,
    show _ = pure _ from hrest, pure_bind]
  rfl

/-- A run in which every call has an answer comes to these answers. -/
theorem run_eq_ok {selector : UInt16} {script : List (List Action)} {calls : List Call} {as : List Answer}
    {last : Recorder} (h : (answers classifier calls).run (start selector script) = (as.map .ok, last)) :
    run classifier selector script calls = .ok as := by
  have hanswers : (answers classifier calls (start selector script)).1 = as.map .ok := congrArg Prod.fst h
  have hok : as.mapM (Except.ok : Answer → Except Fault Answer) = .ok (as.map id) := List.mapM_pure
  rw [run, hanswers, List.mapM_map, Function.id_comp, hok, List.map_id]

/-- Calls from outside have answers, one each, in order. -/
theorem answers_transcript : ∀ (calls : List Call) (r : Recorder),
    ∃ as s, Transcript r.standing calls as ∧
      (answers classifier calls).run r = (as.map .ok, r.advance s (as.flatMap (·.events)))
  | [], r => ⟨[], r.standing, .nil, rfl⟩
  | c :: calls, r => by
    obtain ⟨a, t, hd, hfirst⟩ := answer_derives classifier c r
    obtain ⟨as, s, htail, hrest⟩ := answers_transcript calls (r.advance t a.events)
    rw [advance_advance] at hrest
    exact ⟨a :: as, s, .cons hd htail, answers_cons_run classifier hfirst hrest⟩

theorem run_answered (selector : UInt16) (script : List (List Action)) (calls : List Call) :
    ∃ as, run classifier selector script calls = .ok as ∧ Transcript ⟨selector, script⟩ calls as := by
  obtain ⟨as, s, htranscript, hrun⟩ := answers_transcript classifier calls (start selector script)
  exact ⟨as, run_eq_ok classifier hrun, htranscript⟩

/-- **Every run is a transcript.** Each call has an answer, its events are those
it derives, and in all of them together nothing separates a class from its
request and its instruction. -/
theorem run_transcript (selector : UInt16) (script : List (List Action)) (calls : List Call) :
    ∃ as, run classifier selector script calls = .ok as ∧ Transcript ⟨selector, script⟩ calls as ∧
      Unbroken (as.flatMap (·.events)) ∧
      ((as.flatMap (·.events)).countP Event.isClassify = (as.flatMap (·.events)).countP Event.isSyscall
        + (as.flatMap (·.events)).countP Event.isVmgexit) ∧
      ((as.flatMap (·.events)).countP Event.isWriteMsr
        = (as.flatMap (·.events)).countP Event.isVmgexit) := by
  obtain ⟨as, hrun, htranscript⟩ := run_answered classifier selector script calls
  obtain ⟨hleft, hrequests⟩ := htranscript.unbroken.counts
  exact ⟨as, hrun, htranscript, htranscript.unbroken, hleft, hrequests⟩

end Recorder
end SyscallGate
