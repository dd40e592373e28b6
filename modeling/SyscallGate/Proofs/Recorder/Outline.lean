/-
# Only the ring decides the way

Take from a run all its registers, whoever writes them, and of each selector
everything but the ring that it names or does not name: what is left is a run as
well, its outline (`Derives.outline`). A run has one transcript, so runs with one
outline record the same kinds of events, with the same classes, requests and
ways, however deep their calls nest. A call goes the way that its class was
found to be when it began. A handler may change the selector, but what it did
until then stays as it was; the new selector is for those who ask later
(`routed_by_ring_alone`).

Key definitions: `Recorder.ringOutline`, `Recorder.handlerOutline`,
`Recorder.Event.outline`, `Recorder.Answer.outline`, `Recorder.wayFrom`.
Key theorems: `Recorder.Derives.outline`, `Recorder.Transcript.outline`,
`Recorder.Transcript.unique`, `Recorder.Handled.split`,
`Recorder.routed_by_ring_alone`.
-/
import SyscallGate.Proofs.Recorder.Grammar

namespace SyscallGate
namespace Recorder

/-! ### Outlines -/

/-- A selector of ring 0 if the selector is one, and of another ring if not. -/
def ringOutline (selector : UInt16) : UInt16 := if selector &&& 3 = 0 then 0 else 3

/-- What is left of a handler without registers: nothing of a write, and of a
call that there is one. -/
def handlerOutline : List Action → List Action
  | [] => []
  | .register _ :: actions => handlerOutline actions
  | .selector selector :: actions => .selector (ringOutline selector) :: handlerOutline actions
  | .call _ :: actions | .again :: actions => .again :: handlerOutline actions

/-- An event without registers. -/
def Event.outline : Event → Event
  | classify selector answer => .classify (ringOutline selector) answer
  | writeMsr msr value => .writeMsr msr value
  | syscall _ => .syscall Registers.zero
  | vmgexit _ => .vmgexit Registers.zero
  | returned way _ => .returned way Registers.zero
  | failed fault => .failed fault

/-- A call from outside without registers. -/
def Call.outline (c : Call) : Call := ⟨Registers.zero, c.selector.map ringOutline⟩

/-- An answer without registers. -/
def Answer.outline (answer : Answer) : Answer :=
  { way := answer.way, regs := Registers.zero, events := answer.events.map Event.outline }

/-- What a call stands at, without registers. -/
def Standing.outline (s : Standing) : Standing := ⟨ringOutline s.selector, s.script.map handlerOutline⟩

theorem ringOutline_and_eq_zero_iff (selector : UInt16) : ringOutline selector &&& 3 = 0 ↔ selector &&& 3 = 0 := by
  by_cases hring : selector &&& 3 = 0
  · simp [ringOutline, hring]
  · simp [ringOutline, hring]

theorem ringOutline_eq_of_iff {selector selector' : UInt16} (h : selector &&& 3 = 0 ↔ selector' &&& 3 = 0) :
    ringOutline selector = ringOutline selector' := by
  simp only [ringOutline, h]

/-! ### The outline of a run is a run -/

/-- A handler without registers, before and after whatever it does. -/
abbrev blank : Handling := .start Registers.zero

mutual

/-- **What is left of a call is a call.** -/
theorem Derives.outline {s s' : Standing} {regs after : Registers} {events : List Event} {way : Route} :
    Derives s regs events way after s' →
    Derives s.outline Registers.zero (events.map Event.outline) way Registers.zero s'.outline
  | .direct hring hs => .direct (mt (ringOutline_and_eq_zero_iff s.selector).mp hring) hs.outline
  | .redirect hring hs => .redirect ((ringOutline_and_eq_zero_iff s.selector).mpr hring) hs.outline

theorem Served.outline {s s' : Standing} {regs after : Registers} {events : List Event} :
    Served s regs events after s' →
    Served s.outline Registers.zero (events.map Event.outline) Registers.zero s'.outline
  | .nobody => .nobody
  | .handler hh => .handler hh.outline

theorem Handled.outline {s s' : Standing} {h h' : Handling} {actions : List Action} {events : List Event} :
    Handled s h actions events h' s' →
    Handled s.outline blank (handlerOutline actions) (events.map Event.outline) blank s'.outline
  | .done => .done
  | .register hh => hh.outline
  | .selector hh => .selector hh.outline
  | .call hd hh | .again hd hh => by
    rw [List.map_append]
    exact .again hd.outline hh.outline

end

theorem ringOutline_getD (selector? : Option UInt16) (selector : UInt16) :
    ringOutline (selector?.getD selector) = (selector?.map ringOutline).getD (ringOutline selector) := by
  cases selector? <;> rfl

theorem Transcript.outline {s : Standing} {calls : List Call} {answers : List Answer}
    (h : Transcript s calls answers) :
    Transcript s.outline (calls.map Call.outline) (answers.map Answer.outline) := by
  induction h with
  | nil => exact .nil
  | @cons s s' c calls answer answers hd _ ih =>
    refine .cons ?_ ih
    have houtline := hd.outline
    rw [Standing.outline, ringOutline_getD] at houtline
    exact houtline

theorem Transcript.unique {s : Standing} {calls : List Call} {answers answers' : List Answer}
    (h : Transcript s calls answers) (h' : Transcript s calls answers') : answers = answers' := by
  induction h generalizing answers' with
  | nil =>
    cases h' with
    | nil => rfl
  | @cons _ _ _ _ answer _ hd _ ih =>
    cases h' with
    | @cons _ _ _ _ answer' _ hd' htail' =>
      obtain ⟨hevents, hway, hregs, rfl⟩ := hd.unique hd'
      obtain rfl : answer = answer' := by
        cases answer
        cases answer'
        congr
      rw [ih htail']

/-! ### A change of the selector -/

/-- The way of a call that begins under a selector. -/
def wayFrom (selector : UInt16) : Route := if selector &&& 3 = 0 then .redirect else .direct

/-- What a call records under a selector until it is served. -/
def departure (selector : UInt16) (regs : Registers) : List Event :=
  if selector &&& 3 = 0 then
    [.classify selector .mostPrivileged, .writeMsr 0xc0010130 0x16, .vmgexit regs]
  else [.classify selector .reduced, .syscall regs]

theorem Derives.departs {s s' : Standing} {regs after : Registers} {events : List Event} {way : Route}
    (h : Derives s regs events way after s') :
    way = wayFrom s.selector ∧ ∃ served, events = departure s.selector regs ++ served ∧
      Served s regs served after s' := by
  cases h with
  | direct hring hs =>
    rw [wayFrom, departure, if_neg hring, if_neg hring]
    exact ⟨rfl, _, rfl, hs⟩
  | redirect hring hs =>
    rw [wayFrom, departure, if_pos hring, if_pos hring]
    exact ⟨rfl, _, rfl, hs⟩

theorem Handled.split : ∀ {before later : List Action} {s s' : Standing} {h h' : Handling} {events : List Event},
    Handled s h (before ++ later) events h' s' →
    ∃ first g t rest, Handled s h before first g t ∧ Handled t g later rest h' s' ∧ events = first ++ rest
  | [], _, s, _, h, _, events, hh => ⟨[], h, s, events, .done, hh, rfl⟩
  | .register _ :: before, _, _, _, _, _, _, .register hh => by
    obtain ⟨first, g, t, rest, hfirst, hrest, rfl⟩ := Handled.split hh
    exact ⟨first, g, t, rest, .register hfirst, hrest, rfl⟩
  | .selector _ :: before, _, _, _, _, _, _, .selector hh => by
    obtain ⟨first, g, t, rest, hfirst, hrest, rfl⟩ := Handled.split hh
    exact ⟨first, g, t, rest, .selector hfirst, hrest, rfl⟩
  | .call _ :: before, _, _, _, _, _, _, .call hd hh => by
    obtain ⟨first, g, t, rest, hfirst, hrest, rfl⟩ := Handled.split hh
    exact ⟨_, g, t, rest, .call hd hfirst, hrest, by rw [List.append_assoc, List.cons_append]⟩
  | .again :: before, _, _, _, _, _, _, .again hd hh => by
    obtain ⟨first, g, t, rest, hfirst, hrest, rfl⟩ := Handled.split hh
    exact ⟨_, g, t, rest, .again hd hfirst, hrest, by rw [List.append_assoc, List.cons_append]⟩

/-- **A change of the selector is for those who ask later.** The way of a call,
and what is recorded until its handler comes to the change, are the same with
the change and without it; what the handler does then starts from the new
selector. -/
theorem callWith_change (classifier : Classifier) {depth : Nat} (regs : Registers) (r : Recorder)
    (hdepth : r.script.length < depth) (before : List Action) :
    ∃ common g t, Handled r.standing (.start regs) before common g t ∧
      ∀ (change : Option UInt16) (later : List Action), ∃ rest h s,
        Handled ⟨change.getD t.selector, t.script⟩ g later rest h s ∧
        (callWith classifier (serve classifier depth) regs).run
            { r with script := (before ++ (change.toList.map .selector ++ later)) :: r.script } =
          (.ok (wayFrom r.selector, h.regs), r.advance s (departure r.selector regs ++ common ++ rest)) := by
  have hserves : Serves (serve classifier depth) depth := serve_served classifier depth
  have hbefore : Performs classifier (serve classifier depth) depth before := foldlM_handled hserves before
  obtain ⟨common, g, t, hcommon, -, -⟩ := hbefore (.start regs) r (Nat.le_of_lt hdepth)
  refine ⟨common, g, t, hcommon, fun change later => ?_⟩
  obtain ⟨events, way, after, s, hd, -, hrun⟩ := callWith_derives hserves regs
    { r with script := (before ++ (change.toList.map .selector ++ later)) :: r.script } hdepth
  obtain ⟨rfl, served, rfl, hserved⟩ := hd.departs
  cases hserved with
  | @handler _ _ _ _ h _ _ hh =>
    obtain ⟨first, g', t', rest, hfirst, hrest, rfl⟩ := Handled.split hh
    -- the first actions have one way to go, whatever comes after them
    obtain ⟨rfl, rfl, rfl⟩ := hfirst.unique hcommon
    refine ⟨rest, h, s, ?_, ?_⟩
    · cases change with
      | none => exact hrest
      | some selector =>
        cases hrest with
        | selector hrest => exact hrest
    · rw [hrun, List.append_assoc]
      rfl

/-- **The ring alone decides the way.** Two runs whose selectors are of ring 0 in
the same places, and whose handlers make calls in the same places, record the
same kinds of events with the same classes, requests and ways, at every depth,
whatever is in the registers, whoever writes them, and however the class is
found. A call goes the way of the selector that it began under: that its handler
changes the selector makes no difference to the way, nor to what was recorded
until then, and what the handler does after it starts from the new selector. -/
theorem routed_by_ring_alone (classifier classifier' : Classifier) {selector selector' : UInt16}
    {script script' : List (List Action)} {calls calls' : List Call}
    (hselector : selector &&& 3 = 0 ↔ selector' &&& 3 = 0)
    (hscript : script.map handlerOutline = script'.map handlerOutline)
    (hcalls : calls.map Call.outline = calls'.map Call.outline) :
    (∃ as as', run classifier selector script calls = .ok as ∧
      run classifier' selector' script' calls' = .ok as' ∧ as.map Answer.outline = as'.map Answer.outline) ∧
    ∀ (depth : Nat) (r : Recorder) (regs : Registers) (before : List Action), r.script.length < depth →
      ∃ common g t, Handled r.standing (.start regs) before common g t ∧
        ∀ (change : Option UInt16) (later : List Action), ∃ rest h s,
          Handled ⟨change.getD t.selector, t.script⟩ g later rest h s ∧
          (callWith classifier (serve classifier depth) regs).run
              { r with script := (before ++ (change.toList.map .selector ++ later)) :: r.script } =
            (.ok (wayFrom r.selector, h.regs), r.advance s (departure r.selector regs ++ common ++ rest)) := by
  refine ⟨?_, fun depth r regs before hdepth => callWith_change classifier regs r hdepth before⟩
  obtain ⟨as, hrun, htranscript⟩ := run_answered classifier selector script calls
  obtain ⟨as', hrun', htranscript'⟩ := run_answered classifier' selector' script' calls'
  refine ⟨as, as', hrun, hrun', ?_⟩
  -- the two outlines are transcripts from one standing
  have hstanding : Standing.outline ⟨selector, script⟩ = Standing.outline ⟨selector', script'⟩ := by
    rw [Standing.outline, Standing.outline, ringOutline_eq_of_iff hselector, hscript]
  have houtline := htranscript.outline
  rw [hstanding, hcalls] at houtline
  exact houtline.unique htranscript'.outline

/-- A call in ring 0 whose handler drops to ring 3 and calls from there, twice:
with other registers, with other bits in the selectors, and once with the
registers of the outer call. -/
theorem routed_by_ring_alone_other_registers :
    let handler : List Action := [.register (.set .rcx 1), .selector 0x33, .call (.stage 7 [1])]
    let handler' : List Action := [.selector 0xfff1, .again, .register (.take .rdi .rax), .register (.set .rax 9)]
    ∃ as as', run .bySelector 0x10 [handler] [⟨.stage 39 [1, 2], none⟩] = .ok as ∧
      run .byRing 0xfffc [handler'] [⟨.stage 0xffffffffffffffff [], none⟩] = .ok as' ∧
      as.map Answer.outline = as'.map Answer.outline ∧
      as'.map (fun answer => (answer.way, answer.events.countP Event.isSyscall)) = [(.redirect, 1)] := by
  intro handler handler'
  have hselector : (0x10 : UInt16) &&& 3 = 0 ↔ (0xfffc : UInt16) &&& 3 = 0 := by decide
  have hscript : [handler].map handlerOutline = [handler'].map handlerOutline := by decide
  have hcalls : [(⟨.stage 39 [1, 2], none⟩ : Call)].map Call.outline =
    [(⟨.stage 0xffffffffffffffff [], none⟩ : Call)].map Call.outline := rfl
  obtain ⟨⟨as, as', hrun, hrun', houtline⟩, -⟩ :=
    routed_by_ring_alone .bySelector .byRing hselector hscript hcalls
  refine ⟨as, as', hrun, hrun', houtline, ?_⟩
  have hways : (run .byRing 0xfffc [handler'] [⟨.stage 0xffffffffffffffff [], none⟩]).toOption.map (fun answers =>
      answers.map fun answer => (answer.way, answer.events.countP Event.isSyscall)) = some [(.redirect, 1)] := by
    decide +kernel
  rw [hrun'] at hways
  exact Option.some.inj hways

end Recorder
end SyscallGate
