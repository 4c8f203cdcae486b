import ScionOperator.Agent
import ScionOperator.RoutingPolicy
import ScionOperator.Transition

/-!
# The Policy Files and the Gateway

The agent renders a traffic policy and a routing policy into two files (`renderPolicies`).
The files are not replaced atomically: each is truncated and then filled. The embedded gateway
reads both files after every token it takes from the reload channel, which has one slot; the
agent sends a token when both files are filled, and drops it if the slot is taken. The gateway
also sends itself one token when it starts.

That a token is sent after both files are complete does not keep the agent from rendering
again before the token is used: the gateway can then read a file that was just truncated
(`truncated_while_loading`). It reads complete files only if no rendering begins while a token
is on its way or being handled.

## Main results

* `renderPolicies_eq_runFileSteps`: rendering is truncating and filling the files in turn.
* `loadsComplete_of_noOverlap`: **without such an overlap only complete policies are read.**
-/

namespace ScionOperator

open Text Json

namespace Agent

/-! ### Rendering into files -/

/-- The two policy files. -/
inductive PolicyFile
  | traffic
  | routing
  deriving DecidableEq

/-- The contents of the policy files; a missing one has none. -/
structure Files where
  traffic : Option Str
  routing : Option Str
  deriving DecidableEq

/-- The contents of one of the files. -/
def Files.get (fs : Files) : PolicyFile → Option Str
  | .traffic => fs.traffic
  | .routing => fs.routing

/-- The files with other contents of one of them. -/
def Files.set (fs : Files) (f : PolicyFile) (contents : Option Str) : Files :=
  match f with
  | .traffic => { fs with traffic := contents }
  | .routing => { fs with routing := contents }

/-- How writing a file ends. A write that fails may leave the file as it was, truncated, or
filled in part. -/
inductive WriteResult
  | done
  | failed (left : Option Str)
  deriving DecidableEq

/-- Write a file (`os.WriteFile`). -/
def writeFile (fs : Files) (f : PolicyFile) (data : Str) : WriteResult → Bool × Files
  | .done => (true, fs.set f (some data))
  | .failed left => (false, fs.set f left)

/-- Both policies, rendered from one input. -/
def renderBoth (input : Input) : Except PrepareError (Str × Str) := do
  let traffic ← renderTrafficPolicy input
  let routing ← renderRoutingPolicy input
  pure (traffic, routing)

/-- The policy in one of the files, rendered from an input. -/
def renderFile (input : Input) : PolicyFile → Except PrepareError Str
  | .traffic => renderTrafficPolicy input
  | .routing => renderRoutingPolicy input

/-- Render both policies into their files: whether that succeeds, and the files. -/
def renderPolicies (input : Input) (traffic routing : WriteResult) (fs : Files) : Bool × Files :=
  match renderBoth input with
  | .error _ => (false, fs)
  | .ok (trafficText, routingText) =>
      match writeFile fs .traffic trafficText traffic with
      | (false, fs) => (false, fs)
      | (true, fs) => writeFile fs .routing routingText routing

/-- Both policies are rendered exactly if each of them is. -/
theorem renderBoth_eq_ok {input : Input} {traffic routing : Str} :
    renderBoth input = .ok (traffic, routing) ↔
      renderFile input .traffic = .ok traffic ∧ renderFile input .routing = .ok routing := by
  simp only [renderBoth, renderFile, Result.bind_eq_ok, Result.pure_eq_ok, Prod.mk.injEq]
  constructor
  · rintro ⟨t, ht, r, hr, rfl, rfl⟩
    exact ⟨ht, hr⟩
  · rintro ⟨ht, hr⟩
    exact ⟨traffic, ht, routing, hr, rfl, rfl⟩

/-- Both policies are rendered whenever the input can be prepared. -/
theorem exists_renderBoth_of_prepare {input : Input} {accepted : List Str}
    (h : prepare input = .ok accepted) : ∃ texts, renderBoth input = .ok texts := by
  have htraffic : ∃ traffic, renderTrafficPolicy input = .ok traffic := by
    simp only [renderTrafficPolicy, Result.bind_eq_ok, Result.pure_eq_ok]
    exact ⟨_, accepted, h, rfl⟩
  obtain ⟨traffic, htraffic⟩ := htraffic
  obtain ⟨routing, hrouting⟩ : ∃ routing, renderRoutingPolicy input = .ok routing :=
    ⟨_, renderRoutingPolicy_eq_ok.mpr ⟨accepted, h, rfl⟩⟩
  exact ⟨(traffic, routing), renderBoth_eq_ok.mpr ⟨htraffic, hrouting⟩⟩

/-! ### The steps of rendering -/

/-- A step on a policy file. -/
inductive FileStep
  | truncate (f : PolicyFile)
  | fill (f : PolicyFile) (data : Str)
  deriving DecidableEq

/-- The files after a step. -/
def FileStep.run (fs : Files) : FileStep → Files
  | .truncate f => fs.set f (some [])
  | .fill f data => fs.set f (some data)

/-- The files after some steps. -/
def runFileSteps (fs : Files) (steps : List FileStep) : Files :=
  steps.foldl FileStep.run fs

/-- The steps of writing both policies. -/
def fileSteps (traffic routing : Str) : List FileStep :=
  [.truncate .traffic, .fill .traffic traffic, .truncate .routing, .fill .routing routing]

/-- Whatever the files hold, the steps leave both policies in them. -/
theorem runFileSteps_fileSteps (fs : Files) (traffic routing : Str) :
    runFileSteps fs (fileSteps traffic routing) = ⟨some traffic, some routing⟩ := by
  rfl

/-- Rendering without a failure is taking the steps in turn. -/
theorem renderPolicies_eq_runFileSteps {input : Input} {traffic routing : Str} (fs : Files)
    (h : renderBoth input = .ok (traffic, routing)) :
    renderPolicies input .done .done fs = (true, runFileSteps fs (fileSteps traffic routing)) := by
  rw [renderPolicies, h]
  rfl

end Agent

namespace Reload

open Agent

/-! ### The processes -/

/-- Where the agent is. -/
inductive Writer
  | idle
  /-- it writes the policies; these steps are left -/
  | writing (steps : List FileStep)

/-- The files, the reload channel and the two processes. The inputs policies were rendered from
so far and the contents read by the gateway are kept as well. -/
structure State where
  files : Files
  slot : Bool
  /-- the gateway has not sent its own first token yet -/
  initialToken : Bool
  writer : Writer
  /-- the files the gateway has yet to read for the token it took -/
  loading : List PolicyFile
  rendered : List Input
  loaded : List (PolicyFile × Option Str)

/-- The state when the processes are started: the policies were rendered once. -/
def State.initial (input : Input) (traffic routing : Str) : State where
  files := ⟨some traffic, some routing⟩
  slot := false
  initialToken := true
  writer := .idle
  loading := []
  rendered := [input]
  loaded := []

/-- What can happen. -/
inductive Event
  /-- the agent renders policies from an input and begins to write them -/
  | render (input : Input)
  /-- it takes the next step on a file -/
  | write
  /-- a step fails and leaves these contents in its file; the agent gives up -/
  | writeFails (left : Option Str)
  /-- all files are written, and a token is sent or dropped -/
  | send
  /-- the gateway sends its first token, once the slot is free -/
  | sendInitial
  /-- the gateway takes a token -/
  | receive
  /-- it reads one of the files -/
  | load (f : PolicyFile)

/-- The file a step is about. -/
def fileOf : FileStep → PolicyFile
  | .truncate f => f
  | .fill f _ => f

/-- One step of one of the processes, if it can be taken. -/
def step (s : State) : Event → Option State
  | .render input =>
      match s.writer, renderBoth input with
      | .idle, .ok (traffic, routing) =>
          some { s with
            writer := .writing (fileSteps traffic routing)
            rendered := input :: s.rendered }
      | .idle, .error _ => some s
      | .writing _, _ => none
  | .write =>
      match s.writer with
      | .writing (fileStep :: steps) =>
          some { s with files := fileStep.run s.files, writer := .writing steps }
      | _ => none
  | .writeFails left =>
      match s.writer with
      | .writing (fileStep :: _) =>
          some { s with files := s.files.set (fileOf fileStep) left, writer := .idle }
      | _ => none
  | .send =>
      match s.writer with
      | .writing [] => some { s with slot := true, writer := .idle }
      | _ => none
  | .sendInitial =>
      if s.initialToken ∧ s.slot = false then some { s with slot := true, initialToken := false }
      else none
  | .receive =>
      if s.slot ∧ s.loading = [] then
        some { s with slot := false, loading := [.traffic, .routing] }
      else none
  | .load f =>
      if f ∈ s.loading then
        some { s with
          loading := s.loading.erase f
          loaded := (f, s.files.get f) :: s.loaded }
      else none

/-- Everything the gateway read is the complete text of a policy that was rendered before. -/
def State.LoadsComplete (s : State) : Prop :=
  ∀ e ∈ s.loaded, ∃ input ∈ s.rendered, ∃ text, renderFile input e.1 = .ok text ∧ e.2 = some text

/-- A token is on its way to the gateway, or being handled. -/
def State.outstanding (s : State) : Bool :=
  s.slot || s.initialToken || s.loading ≠ []

/-- No rendering begins while a token is outstanding. -/
def noOverlap (s : State) : Event → Bool
  | .render _ => !s.outstanding
  | _ => true

/-! ### Complete policies -/

/-- The files hold complete texts of policies that were rendered. -/
def Complete (rendered : List Input) (fs : Files) : Prop :=
  ∀ f, ∃ input ∈ rendered, ∃ text, renderFile input f = .ok text ∧ fs.get f = some text

/-- What holds in every state without overlaps: what was read is complete; while a token is
outstanding the agent does not write and the files are complete; and the steps that are left
to write complete them. -/
structure Invariant (s : State) : Prop where
  loads : s.LoadsComplete
  unwritten : s.outstanding = true → s.writer = .idle ∧ Complete s.rendered s.files
  completes : ∀ steps, s.writer = .writing steps →
    Complete s.rendered (runFileSteps s.files steps)

/-- The steps of writing two policies complete the files. -/
theorem complete_fileSteps {input : Input} {traffic routing : Str} (fs : Files)
    (h : renderBoth input = .ok (traffic, routing)) (rendered : List Input) :
    Complete (input :: rendered) (runFileSteps fs (fileSteps traffic routing)) := by
  obtain ⟨htraffic, hrouting⟩ := renderBoth_eq_ok.mp h
  rw [runFileSteps_fileSteps]
  intro f
  cases f with
  | traffic => exact ⟨input, List.mem_cons_self, traffic, htraffic, rfl⟩
  | routing => exact ⟨input, List.mem_cons_self, routing, hrouting, rfl⟩

/-- The invariant holds at the start. -/
theorem invariant_initial {input : Input} {traffic routing : Str}
    (h : renderBoth input = .ok (traffic, routing)) :
    Invariant (.initial input traffic routing) where
  loads := by simp [State.LoadsComplete, State.initial]
  unwritten := fun _ => ⟨rfl, complete_fileSteps ⟨none, none⟩ h []⟩
  completes := fun _ h => by cases h

/-- A rendering that begins while no token is outstanding keeps the invariant. -/
theorem Invariant.render {s : State} (h : Invariant s) {input : Input} {traffic routing : Str}
    (hboth : renderBoth input = .ok (traffic, routing)) (hover : s.outstanding = false) :
    Invariant { s with
      writer := .writing (fileSteps traffic routing)
      rendered := input :: s.rendered } := by
  refine ⟨fun e he => ?_, fun hout => ?_, ?_⟩
  · obtain ⟨input', hmem, htext⟩ := h.loads e he
    exact ⟨input', List.mem_cons_of_mem input hmem, htext⟩
  · exact absurd (hover.symm.trans hout) Bool.false_ne_true
  · rintro steps ⟨⟩
    exact complete_fileSteps s.files hboth s.rendered

/-- A file that is read while a token is handled is complete. -/
theorem Invariant.load {s : State} (h : Invariant s) {f : PolicyFile} (hmem : f ∈ s.loading) :
    Invariant { s with
      loading := s.loading.erase f
      loaded := (f, s.files.get f) :: s.loaded } := by
  have hout : s.outstanding = true := by simp [State.outstanding, List.ne_nil_of_mem hmem]
  obtain ⟨hwriter, hcomplete⟩ := h.unwritten hout
  refine ⟨fun e he => ?_, fun _ => ⟨hwriter, hcomplete⟩, h.completes⟩
  rcases List.mem_cons.mp he with rfl | he
  · exact hcomplete f
  · exact h.loads e he

/-- Every step without an overlap keeps the invariant. -/
theorem invariant_step (s : State) (e : Event) (s' : State) (h : Invariant s)
    (hover : noOverlap s e = true) (hstep : step s e = some s') : Invariant s' := by
  obtain ⟨files, slot, initialToken, writer, loading, rendered, loaded⟩ := s
  cases e with
  | render input =>
      cases writer with
      | writing steps => cases hstep
      | idle =>
          cases hboth : renderBoth input with
          | error err =>
              simp only [step, hboth, Option.some.injEq] at hstep
              obtain rfl := hstep
              exact h
          | ok texts =>
              obtain ⟨traffic, routing⟩ := texts
              simp only [step, hboth, Option.some.injEq] at hstep
              obtain rfl := hstep
              rw [noOverlap, Bool.not_eq_true'] at hover
              exact h.render hboth hover
  | write =>
      cases writer with
      | idle => cases hstep
      | writing steps =>
          cases steps with
          | nil => cases hstep
          | cons fileStep steps =>
              obtain rfl := Option.some.inj hstep
              refine ⟨h.loads, fun hout => ?_, ?_⟩
              · cases (h.unwritten hout).1
              · rintro steps' ⟨⟩
                exact h.completes (fileStep :: steps) rfl
  | writeFails left =>
      cases writer with
      | idle => cases hstep
      | writing steps =>
          cases steps with
          | nil => cases hstep
          | cons fileStep steps =>
              obtain rfl := Option.some.inj hstep
              refine ⟨h.loads, fun hout => ?_, fun _ hw => by cases hw⟩
              cases (h.unwritten hout).1
  | send =>
      cases writer with
      | idle => cases hstep
      | writing steps =>
          cases steps with
          | cons fileStep steps => cases hstep
          | nil =>
              obtain rfl := Option.some.inj hstep
              exact ⟨h.loads, fun _ => ⟨rfl, h.completes [] rfl⟩, fun _ hw => by cases hw⟩
  | sendInitial =>
      simp only [step] at hstep
      split_ifs at hstep with hcond
      obtain rfl := Option.some.inj hstep
      refine ⟨h.loads, fun _ => h.unwritten ?_, h.completes⟩
      simp [State.outstanding, hcond.1]
  | receive =>
      simp only [step] at hstep
      split_ifs at hstep with hcond
      obtain rfl := Option.some.inj hstep
      refine ⟨h.loads, fun _ => h.unwritten ?_, h.completes⟩
      simp [State.outstanding, hcond.1]
  | load f =>
      simp only [step] at hstep
      split_ifs at hstep with hmem
      obtain rfl := Option.some.inj hstep
      exact h.load hmem

/-- **The gateway loads complete policies.** In every run in which no rendering begins while a
token is outstanding, everything the gateway reads is the complete text of a policy that was
rendered before. -/
theorem loadsComplete_of_noOverlap {input : Input} {traffic routing : Str}
    (hrendered : renderBoth input = .ok (traffic, routing)) {events : List Event} {s : State}
    (hrun : Transition.run step (.initial input traffic routing) events = some s)
    (hover : Transition.Always step (fun s e => noOverlap s e = true)
      (.initial input traffic routing) events) : s.LoadsComplete :=
  (Transition.run_invariant invariant_step (invariant_initial hrendered) hover hrun).loads

/-- An input with one remote, and this net to advertise. -/
def inputAdvertising (net : String) : Input :=
  ⟨"1-ff00:0:110".toList, [net.toList], ["2-ff00:0:210".toList], ["128.0.0.0/1".toList]⟩

/-- The texts rendered from such an input. -/
def sampleTexts (net : String) : Str × Str :=
  match renderBoth (inputAdvertising net) with
  | .ok texts => texts
  | .error _ => ([], [])

/-- The state in which the policies for one net were rendered. -/
def sampleStart : State :=
  .initial (inputAdvertising "10.244.1.0/26") (sampleTexts "10.244.1.0/26").1
    (sampleTexts "10.244.1.0/26").2

/-- The gateway handles its own token, then the policies are rendered again and loaded. -/
def orderlyRun : List Event :=
  [.sendInitial, .receive, .load .traffic, .load .routing,
    .render (inputAdvertising "10.244.2.0/26"), .write, .write, .write, .write, .send,
    .receive, .load .routing, .load .traffic]

/-- In the orderly run four complete policies are read. -/
theorem loadsComplete_of_orderlyRun :
    ∃ s, Transition.run step sampleStart orderlyRun = some s ∧ s.loaded.length = 4 ∧
      s.LoadsComplete := by
  have hend : (Transition.run step sampleStart orderlyRun).map (fun s => s.loaded.length) =
      some 4 := by decide +kernel
  obtain ⟨s, hrun, hloaded⟩ := Option.map_eq_some_iff.mp hend
  have hrendered : renderBoth (inputAdvertising "10.244.1.0/26") =
      .ok (sampleTexts "10.244.1.0/26") := by decide +kernel
  exact ⟨s, hrun, hloaded, loadsComplete_of_noOverlap hrendered hrun (by decide +kernel)⟩

/-- The policies are rendered again while the gateway handles its own token. -/
def overlappingRun : List Event :=
  [.sendInitial, .receive, .render (inputAdvertising "10.244.2.0/26"), .write, .load .traffic]

/-- The gateway reads an empty traffic policy. -/
theorem truncated_while_loading :
    ∃ s, Transition.run step sampleStart overlappingRun = some s ∧
      s.loaded = [(.traffic, some [])] ∧ ¬ s.LoadsComplete := by
  have hend : (Transition.run step sampleStart overlappingRun).map
      (fun s => (s.loaded, s.rendered.all fun input =>
        decide (renderFile input .traffic ≠ .ok []))) =
        some ([(.traffic, some [])], true) := by decide +kernel
  obtain ⟨s, hrun, hs⟩ := Option.map_eq_some_iff.mp hend
  obtain ⟨hloaded, hrendered⟩ := Prod.mk.inj hs
  refine ⟨s, hrun, hloaded, fun hcomplete => ?_⟩
  obtain ⟨input, hinput, text, htext, hempty⟩ :=
    hcomplete (.traffic, some []) (by rw [hloaded]; exact List.mem_cons_self)
  obtain rfl := Option.some.inj hempty
  have hne := List.all_eq_true.mp hrendered input hinput
  exact of_decide_eq_true hne htext

end Reload

end ScionOperator
