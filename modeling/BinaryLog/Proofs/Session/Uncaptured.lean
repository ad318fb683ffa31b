import BinaryLog.Proofs.Interception.Capture
import BinaryLog.Proofs.Session.InStep
import BinaryLog.Proofs.Session.Received
import BinaryLog.Proofs.Wire.Framing

/-!
# What is not captured leaves no mark

Scripts that are the same except for contents that are not captured within the limits of their calls
hand the same entries to the sink.

* `ScriptsAlike table before script script'`: what may differ.
* `recorded_alike`: levels within the limits record the same.
* `run_handed_eq`, `run_handed_eq_of_sink_eq`: so do whole runs, if no entry is refused, or if they
  start with equal sinks.
* `uncaptured_leaves_no_mark`: both, and the octets that are written.
-/

namespace BinaryLog.Session

/-! ## Scripts that differ in what is not captured -/

/-- Headers of equal lengths that are the same where they are captured, if the call has limits. -/
def HeadersAlike (limits : Option Limits) (md md' : Metadata) : Prop :=
  ∀ l ∈ limits, Metadata.AlikeWithin l.headerBytes md md'

/-- Messages of equal lengths that are the same where they are captured, if the call has limits. -/
def MessagesAlike (limits : Option Limits) (data data' : Bytes) : Prop :=
  ∀ l ∈ limits, Bytes.AlikeWithin l.messageBytes data data'

instance (limits : Option Limits) (md md' : Metadata) : Decidable (HeadersAlike limits md md') :=
  inferInstanceAs (Decidable (∀ l ∈ limits, _))

instance (limits : Option Limits) (data data' : Bytes) :
    Decidable (MessagesAlike limits data data') :=
  inferInstanceAs (Decidable (∀ l ∈ limits, _))

/-- The limits for the call that a step is about. -/
def limitsAt (table : Config.RuleTable) (before : List Step) (st : Step) : Option Limits :=
  (methodAt before st).bind table.lookup

/-- Scripts that are the same step by step, except for what is not captured; `before` is what was
run before them. -/
inductive ScriptsAlike (table : Config.RuleTable) : List Step → List Step → List Step → Prop
  | nil {before : List Step} : ScriptsAlike table before [] []
  | cons {before script script' : List Step} {st st' : Step} :
      st.action.Alike (HeadersAlike (limitsAt table before st))
        (MessagesAlike (limitsAt table before st)) st'.action →
      st.callFault = st'.callFault → st.sinkFault = st'.sinkFault →
      ScriptsAlike table (before ++ [st]) script script' →
      ScriptsAlike table before (st :: script) (st' :: script')

/-! ## What is recorded -/

theorem recorded_alike (limits : Option Limits) :
    Recorded (Tap.Paired limits limits) (HeadersAlike limits) (MessagesAlike limits) Eq := by
  refine ⟨fun _ _ h => h.1, ?_⟩
  rintro ⟨l, id⟩ ⟨l', id'⟩ side event event' ⟨hid, hl, hl'⟩ hevent
  obtain rfl : id = id' := hid
  obtain rfl : l = l' := Option.some.inj (hl.symm.trans hl')
  have hheaders : ∀ {md md'}, HeadersAlike limits md md' →
      md.capture l.headerBytes = md'.capture l.headerBytes :=
    fun hmd => (hmd l hl).capture_eq
  have hmessage : ∀ {data data'} compressed, MessagesAlike limits data data' →
      CapturedMessage.capture l.messageBytes compressed data =
        CapturedMessage.capture l.messageBytes compressed data' :=
    fun compressed hdata => (hdata l hl).capture_eq compressed
  cases event <;> cases event' <;> try exact hevent.elim
  case sentHeaders | sentTrailers | receivedTrailers =>
    simp only [Tap.entry, Limits.record, Limits.capture, hheaders hevent]
    rfl
  case receivedHeaders =>
    obtain ⟨hmd, rfl⟩ := hevent
    simp only [Tap.entry, Limits.record, Limits.capture, hheaders hmd]
    rfl
  case sentMessage | receivedMessage =>
    obtain ⟨rfl, hdata⟩ := hevent
    simp only [Tap.entry, Limits.record, Limits.capture, hmessage _ hdata]
    rfl

/-! ## Runs -/

section
variable {table : Config.RuleTable} {before script script' : List Step} {s s' : Session}

theorem recorded_at {st : Step} {name : String} (htable : s.table = table)
    (htable' : s'.table = table) (hcall : st.action.call = some name) :
    RecordedAt (HeadersAlike (limitsAt table before st))
      (MessagesAlike (limitsAt table before st)) Eq name (before ++ [st]) s s' := by
  have hlimits : limitsAt table before st = limitsOf table name (before ++ [st]) := by
    rw [limitsAt, methodAt, hcall, Option.bind_some, Option.bind_map]
    rfl
  rw [RecordedAt, TapsAt, hlimits, htable, htable']
  exact recorded_alike _

/-- If no entry is refused, scripts that differ in what is not captured hand over the same. -/
theorem run_handed_eq (h : ScriptsAlike table before script script')
    (hstep : InStep (fun _ => True) before s s') (hs : s.Reachable) (hs' : s'.Reachable)
    (htable : s.table = table) (htable' : s'.table = table)
    (hok : ∀ r ∈ (s.run script).1, noneRefused r.trace)
    (hok' : ∀ r ∈ (s'.run script').1, noneRefused r.trace) :
    (s.run script).1.map (handed ·.trace) = (s'.run script').1.map (handed ·.trace) := by
  induction h generalizing s s' with
  | nil => rfl
  | @cons before script script' st st' ha hfault hsinkFault _ ih =>
    obtain ⟨hfirst, hrest⟩ := List.forall_mem_cons.1 hok
    obtain ⟨hfirst', hrest'⟩ := List.forall_mem_cons.1 hok'
    obtain ⟨hnext, hsame⟩ := hstep.step hs hs' (fun _ _ => by rw [htable, htable']) ha hfault
      (fun name hcall _ => recorded_at htable htable' hcall) hfirst hfirst'
    have hhanded : handed (s.step st).1.trace = handed (s'.step st').1.trace := by
      cases hcall : st.action.call with
      | some name =>
        have := hsame name hcall fun _ _ => trivial
        rwa [List.forall₂_eq_eq_eq] at this
      | none => rw [(step_no_call s hcall).2.1, (step_no_call s' (ha.call_eq ▸ hcall)).2.1]
    exact congrArg₂ List.cons hhanded
      (ih hnext (hs.step st) (hs'.step st') htable htable' hrest hrest')

/-- From equal sinks they do so whatever is refused, and leave equal sinks. -/
theorem run_handed_eq_of_sink_eq (h : ScriptsAlike table before script script')
    (hstep : InStep (fun _ => True) before s s') (hs : s.Reachable) (hs' : s'.Reachable)
    (htable : s.table = table) (htable' : s'.table = table) (hsink : s.sink = s'.sink) :
    (s.run script).1.map (handed ·.trace) = (s'.run script').1.map (handed ·.trace) ∧
      (s.run script).2.sink = (s'.run script').2.sink := by
  induction h generalizing s s' with
  | nil => exact ⟨rfl, hsink⟩
  | @cons before script script' st st' ha hfault hsinkFault _ ih =>
    have hsameTable : s.table = s'.table := htable.trans htable'.symm
    obtain ⟨hnext, hhanded, hsinks⟩ := hstep.step_of_sink_eq hs hs' hsameTable hsink ha hfault
      hsinkFault fun name hcall => recorded_at htable htable' hcall
    obtain ⟨hlater, hlast⟩ := ih hnext (hs.step st) (hs'.step st') htable htable' hsinks
    exact ⟨congrArg₂ List.cons hhanded hlater, hlast⟩

end

theorem logOf_eq_flatten {reports : List Report} (hok : ∀ r ∈ reports, noneRefused r.trace) :
    logOf reports = (reports.map (handed ·.trace)).flatten := by
  have hsame : reports.map (accepted ·.trace) = reports.map (handed ·.trace) :=
    List.map_congr_left fun r hr => accepted_eq_handed (hok r hr)
  rw [logOf, List.flatMap_def, hsame]

/-- **What is not captured leaves no mark in the log.** Let two scripts be the same, except for the
octets of messages beyond what is captured of them, the contents of headers and trailers that are
not captured, statuses, reasons for cancelling and numbers of requested messages. Over equal sinks
each step hands over the same entries in both runs, even if some are refused, and the sinks end up
equal, with all that was written to them. And over any sinks that refuse nothing they hand over the
same entries and so log the same octets. -/
theorem uncaptured_leaves_no_mark (table : Config.RuleTable) (script script' : List Step) :
    ScriptsAlike table [] script script' →
    (∀ sink,
      let run := (start table sink).run script
      let run' := (start table sink).run script'
      run.1.map (handed ·.trace) = run'.1.map (handed ·.trace) ∧ run.2.sink = run'.2.sink) ∧
    ∀ sink sink',
      let reports := ((start table sink).run script).1
      let reports' := ((start table sink').run script').1
      (∀ r ∈ reports, noneRefused r.trace) → (∀ r ∈ reports', noneRefused r.trace) →
      reports.map (handed ·.trace) = reports'.map (handed ·.trace) ∧
        stream (logOf reports) = stream (logOf reports') := by
  intro h
  have hstart : ∀ sink sink', InStep (fun _ => True) [] (start table sink) (start table sink') :=
    .start _ table table
  have hreachable : ∀ sink, (start table sink).Reachable := fun sink => .of_run table sink []
  constructor
  · intro sink
    have hreach := hreachable sink
    exact run_handed_eq_of_sink_eq h (hstart sink sink) hreach hreach rfl rfl rfl
  · intro sink sink' reports reports' hok hok'
    have hsame := run_handed_eq h (hstart sink sink') (hreachable sink) (hreachable sink') rfl rfl
      hok hok'
    refine ⟨hsame, ?_⟩
    rw [logOf_eq_flatten hok, logOf_eq_flatten hok', hsame]

/-- Of three headers the second does not fit, and of the message one octet does. -/
theorem uncaptured_leaves_no_mark_of_two :
    let table : Config.RuleTable := ⟨[⟨.all, ⟨3, 1⟩⟩], []⟩
    let script (header : Header) (octet : UInt8) (reason : String) : List Step :=
      [⟨.openClient "c" "a/b" [⟨0, 1⟩] none, none, none⟩,
        ⟨.operate "c" (.start [⟨[1], [2]⟩, header, ⟨[5], []⟩]), none, none⟩,
        ⟨.operate "c" (.sendMessage [7, octet]), none, none⟩,
        ⟨.operate "c" (.cancel (some reason)), none, none⟩]
    let sink : Sink := .writer .reliable
    let run := (start table sink).run (script ⟨[3], [4]⟩ 8 "late")
    let run' := (start table sink).run (script ⟨[6], [9]⟩ 0 "lost")
    let reports := ((start table (.memory [])).run (script ⟨[6], [9]⟩ 0 "lost")).1
    (ScriptsAlike table [] (script ⟨[3], [4]⟩ 8 "late") (script ⟨[6], [9]⟩ 0 "lost") ∧
      (∀ r ∈ run.1, noneRefused r.trace) ∧ ∀ r ∈ reports, noneRefused r.trace) ∧
    (run.1.map (handed ·.trace) = run'.1.map (handed ·.trace) ∧ run.2.sink = run'.2.sink) ∧
      run.1.map (handed ·.trace) = reports.map (handed ·.trace) ∧
        stream (logOf run.1) = stream (logOf reports) := by
  intro table script sink run run' reports
  have halike :
      ScriptsAlike table [] (script ⟨[3], [4]⟩ 8 "late") (script ⟨[6], [9]⟩ 0 "lost") := by
    refine .cons rfl rfl rfl (.cons ⟨rfl, ?_⟩ rfl rfl (.cons ⟨rfl, ?_⟩ rfl rfl
      (.cons ⟨rfl, trivial⟩ rfl rfl .nil)))
    · show HeadersAlike _ _ _
      decide
    · show MessagesAlike _ _ _
      decide
  have hok : ∀ r ∈ run.1, noneRefused r.trace := by decide +kernel
  have hok' : ∀ r ∈ reports, noneRefused r.trace := by decide
  obtain ⟨hequal, hany⟩ := uncaptured_leaves_no_mark table _ _ halike
  exact ⟨⟨halike, hok, hok'⟩, hequal sink, hany sink (.memory []) hok hok'⟩

end BinaryLog.Session
