import BinaryLog.Proofs.Interception.Capture
import BinaryLog.Proofs.Session.InStep

/-!
# Greater limits only tell more

When the limits for a method are raised, the same entries are made for its calls, and each tells at
least as much as before.

* `Entry.GrowsTo e e'`: `e'` is of the same event as `e` and tells at least as much of it.
* `recorded_growsTo`: records within greater limits.
* `entriesOf_growsTo`: what a run logs for the calls of a method.
* `greater_limits_tell_more`: so runs under greater limits tell more, though not of the same
  headers.
-/

namespace BinaryLog

/-- Two captures of the same content, of which the second holds at least as much: as many octets of
headers, or a longer beginning of the message. -/
def Payload.GrowsTo : Payload → Payload → Prop
  | .metadata md, .metadata md' => md.size ≤ md'.size
  | .message m, .message m' => m.flags = m'.flags ∧ m.length = m'.length ∧ m.data <+: m'.data
  | _, _ => False

/-- Two entries for one event, of which the second tells at least as much. -/
structure Entry.GrowsTo (e e' : Entry) : Prop where
  kind : e.kind = e'.kind
  side : e.side = e'.side
  callId : e.callId = e'.callId
  peer : e.peer = e'.peer
  payload : e.payload.GrowsTo e'.payload

theorem Limits.capture_growsTo {l l' : Limits} (hheaders : l.headerBytes ≤ l'.headerBytes)
    (hmessages : l.messageBytes ≤ l'.messageBytes) (event : CallEvent) :
    (l.capture event).GrowsTo (l'.capture event) := by
  cases event with
  | sentHeaders md | receivedHeaders md | sentTrailers md | receivedTrailers md =>
    exact Metadata.size_capture_mono hheaders md
  | sentMessage _ data | receivedMessage _ data =>
    exact ⟨rfl, rfl, List.take_prefix_take_left hmessages⟩

/-- Taps within greater limits record at least as much of the same event. -/
theorem recorded_growsTo {l l' : Limits} (hheaders : l.headerBytes ≤ l'.headerBytes)
    (hmessages : l.messageBytes ≤ l'.messageBytes) :
    Recorded (Tap.Paired (some l) (some l')) Eq Eq Entry.GrowsTo := by
  refine ⟨fun _ _ h => h.1, ?_⟩
  rintro ⟨_, id⟩ ⟨_, id'⟩ side event event' ⟨hid, hl, hl'⟩ hevent
  cases hl
  cases hl'
  obtain rfl := hevent.eq
  exact ⟨rfl, rfl, hid, rfl, Limits.capture_growsTo hheaders hmessages event⟩

namespace Session

/-- The entries that a run hands over in the steps on calls for a method; `before` is what was run
before it. -/
def entriesOf (method : String) (before : List Step) : List Step → List Report → List Entry
  | st :: script, r :: reports =>
    (if methodAt before st = some method then handed r.trace else []) ++
      entriesOf method (before ++ [st]) script reports
  | _, _ => []

section
variable {method : String} {before : List Step} {s s' : Session} {l l' : Limits}

theorem openedFor_of_methodAt {st : Step} (h : methodAt before st = some method) :
    ∃ name, st.action.call = some name ∧ OpenedFor (· = method) name (before ++ [st]) := by
  obtain ⟨name, hcall, hmethod⟩ := Option.bind_eq_some_iff.1 h
  obtain ⟨opened, hlast, rfl⟩ := Option.map_eq_some_iff.1 hmethod
  refine ⟨name, hcall, fun opened' hlast' => ?_⟩
  rw [hlast] at hlast'
  cases hlast'
  rfl

theorem recordedAt_of_openedFor {name : String} {script : List Step}
    (hfor : OpenedFor (· = method) name script) (hl : s.table.lookup method = some l)
    (hl' : s'.table.lookup method = some l') (hheaders : l.headerBytes ≤ l'.headerBytes)
    (hmessages : l.messageBytes ≤ l'.messageBytes) :
    RecordedAt Eq Eq Entry.GrowsTo name script s s' := by
  unfold RecordedAt TapsAt limitsOf
  cases hlast : lastOpening name script with
  | none =>
    -- there is no call, so no taps
    exact ⟨fun _ _ h => h.1, fun _ _ _ _ _ h => by cases h.2.1⟩
  | some opened =>
    obtain rfl : opened.1 = method := hfor opened hlast
    rw [Option.bind_some, Option.bind_some, hl, hl']
    exact recorded_growsTo hheaders hmessages

/-- What a run logs for the calls of a method grows with the limits. -/
theorem entriesOf_growsTo (hstep : InStep (· = method) before s s') (hs : s.Reachable)
    (hs' : s'.Reachable) (hl : s.table.lookup method = some l)
    (hl' : s'.table.lookup method = some l') (hheaders : l.headerBytes ≤ l'.headerBytes)
    (hmessages : l.messageBytes ≤ l'.messageBytes) (script : List Step)
    (hok : ∀ r ∈ (s.run script).1, noneRefused r.trace)
    (hok' : ∀ r ∈ (s'.run script).1, noneRefused r.trace) :
    List.Forall₂ Entry.GrowsTo (entriesOf method before script (s.run script).1)
      (entriesOf method before script (s'.run script).1) := by
  -- the calls for other methods need not be in step, and nothing is said of their entries
  induction script generalizing before s s' with
  | nil => exact .nil
  | cons st script ih =>
    obtain ⟨hfirst, hrest⟩ := List.forall_mem_cons.1 hok
    obtain ⟨hfirst', hrest'⟩ := List.forall_mem_cons.1 hok'
    have hrules : ∀ other, other = method →
        (s.table.lookup other).isSome = (s'.table.lookup other).isSome := by
      rintro _ rfl
      rw [hl, hl', Option.isSome_some, Option.isSome_some]
    obtain ⟨hnext, hgrows⟩ := hstep.step hs hs' hrules (.refl st.action) rfl
      (fun name _ hfor => recordedAt_of_openedFor hfor hl hl' hheaders hmessages) hfirst hfirst'
    refine List.rel_append ?_ (ih hnext (hs.step st) (hs'.step st) hl hl' hrest hrest')
    by_cases hmethod : methodAt before st = some method
    · obtain ⟨name, hcall, hfor⟩ := openedFor_of_methodAt hmethod
      rw [if_pos hmethod, if_pos hmethod]
      exact hgrows name hcall hfor
    · rw [if_neg hmethod, if_neg hmethod]
      exact .nil

end

/-- **Greater limits only tell more.** Let a script run under two sets of rules that give a method
limits, the second no smaller ones, over sinks that refuse nothing. Then as many entries are made
for the calls of this method, and one by one they are of the same event, side, call and peer, and of
messages of the same flags and length. What is captured of a message begins with what is captured
within the smaller limits, and of headers at least as many octets are, though they need not include
the same headers. -/
theorem greater_limits_tell_more (table table' : Config.RuleTable) (method : String)
    (l l' : Limits) (sink sink' : Sink) (script : List Step) :
    let reports := ((start table sink).run script).1
    let reports' := ((start table' sink').run script).1
    table.lookup method = some l → table'.lookup method = some l' →
    l.headerBytes ≤ l'.headerBytes → l.messageBytes ≤ l'.messageBytes →
    (∀ r ∈ reports, noneRefused r.trace) → (∀ r ∈ reports', noneRefused r.trace) →
    List.Forall₂ Entry.GrowsTo (entriesOf method [] script reports)
        (entriesOf method [] script reports') ∧
      ∃ (budget budget' : Nat) (md : Metadata), budget ≤ budget' ∧
        ∃ h ∈ md.capture budget, h ∉ md.capture budget' := by
  intro reports reports' hl hl' hheaders hmessages hok hok'
  have hstart : InStep (· = method) [] (start table sink) (start table' sink') :=
    .start _ table table' sink sink'
  have hgrows := entriesOf_growsTo hstart (.of_run table sink []) (.of_run table' sink' []) hl hl'
    hheaders hmessages script hok hok'
  exact ⟨hgrows, Metadata.capture_not_subset⟩

/-- Two levels of a client, first within limits of one and one, then within limits of two and three:
the greater limits capture the first header in place of the second. -/
theorem greater_limits_tell_more_of_two :
    let table : Config.RuleTable := ⟨[⟨.all, ⟨1, 1⟩⟩], []⟩
    let table' : Config.RuleTable := ⟨[⟨.all, ⟨2, 3⟩⟩], []⟩
    let script : List Step := [⟨.openClient "c" "a/b" [⟨0, 1⟩, ⟨0, 2⟩] none, none, none⟩,
      ⟨.operate "c" (.start [⟨[1], [1]⟩, ⟨[2], []⟩]), none, none⟩,
      ⟨.operate "c" (.sendMessage [7, 8, 9]), some "down", none⟩]
    let reports := ((start table (.memory [])).run script).1
    let reports' := ((start table' (.writer .reliable)).run script).1
    (table.lookup "a/b" = some ⟨1, 1⟩ ∧ table'.lookup "a/b" = some ⟨2, 3⟩ ∧
      (⟨1, 1⟩ : Limits).headerBytes ≤ (⟨2, 3⟩ : Limits).headerBytes ∧
      (⟨1, 1⟩ : Limits).messageBytes ≤ (⟨2, 3⟩ : Limits).messageBytes ∧
      (∀ r ∈ reports, noneRefused r.trace) ∧ ∀ r ∈ reports', noneRefused r.trace) ∧
    List.Forall₂ Entry.GrowsTo (entriesOf "a/b" [] script reports)
        (entriesOf "a/b" [] script reports') ∧
      ∃ (budget budget' : Nat) (md : Metadata), budget ≤ budget' ∧
        ∃ h ∈ md.capture budget, h ∉ md.capture budget' := by
  intro table table' script reports reports'
  have hl : table.lookup "a/b" = some ⟨1, 1⟩ := by decide
  have hl' : table'.lookup "a/b" = some ⟨2, 3⟩ := by decide
  have hheaders : (⟨1, 1⟩ : Limits).headerBytes ≤ (⟨2, 3⟩ : Limits).headerBytes := by decide
  have hmessages : (⟨1, 1⟩ : Limits).messageBytes ≤ (⟨2, 3⟩ : Limits).messageBytes := by decide
  have hok : ∀ r ∈ reports, noneRefused r.trace := by decide
  have hok' : ∀ r ∈ reports', noneRefused r.trace := by decide +kernel
  exact ⟨⟨hl, hl', hheaders, hmessages, hok, hok'⟩,
    greater_limits_tell_more table table' "a/b" ⟨1, 1⟩ ⟨2, 3⟩ (.memory []) (.writer .reliable)
      script hl hl' hheaders hmessages hok hok'⟩

end Session

end BinaryLog
