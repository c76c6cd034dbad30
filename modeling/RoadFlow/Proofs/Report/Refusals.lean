import RoadFlow.Proofs.Report.Calls
import RoadFlow.Report.Recorder

/-!
# Refused calls of a recorder

A recorder makes the same calls to its writer whatever the writer answers, and of the refusals it
keeps the earliest. One call of a run is a few calls to the writer (`Recorder.hear_eq`), and between
two questions these add up to one list of calls (`Recorder.drive_hears`). So each question is
answered by the earliest refusal since the one before, and no call is skipped
(`refusals_of_events`).
-/

namespace RoadFlow

variable {ω ε : Type} {sink : Sink ω ε}

/-! ## Calls to a writer that may refuse them -/

namespace ReportCall

/-- Makes all calls, whatever comes of them: the writer after them and the refusals in their
order. -/
def makeAll (sink : Sink ω ε) (w : ω) : List ReportCall → ω × List ε
  | [] => (w, [])
  | call :: calls =>
    let (w, result) := call.make sink w
    let (w, refusals) := makeAll sink w calls
    match result with
    | .ok () => (w, refusals)
    | .error fault => (w, fault :: refusals)

theorem makeAll_append (w : ω) (calls more : List ReportCall) :
    makeAll sink w (calls ++ more) =
      ((makeAll sink (makeAll sink w calls).1 more).1,
        (makeAll sink w calls).2 ++ (makeAll sink (makeAll sink w calls).1 more).2) := by
  induction calls generalizing w with
  | nil => rfl
  | cons call calls ih =>
    simp only [List.cons_append, makeAll, ih]
    cases (call.make sink w).2 <;> rfl

end ReportCall

/-- The sink that also lists the calls it is given, refused or not. -/
def Sink.listing (sink : Sink ω ε) : Sink (ω × List ReportCall) ε :=
  let listed (call : ReportCall) (w : ω × List ReportCall) :
      (ω × List ReportCall) × Except ε Unit :=
    let (writer, result) := call.make sink w.1
    ((writer, w.2 ++ [call]), result)
  { writeMetrics w m := listed (.metrics m) w
    writeFlows w rows := listed (.flows rows) w
    writeEdges w rows := listed (.edges rows) w
    writeClusters w rows := listed (.clusters rows) w
    writeTrips w rows := listed (.trips rows) w
    finish w := listed .finish w }

theorem ReportCall.makeAll_listing (w : ω) (before calls : List ReportCall) :
    makeAll sink.listing (w, before) calls =
      (((makeAll sink w calls).1, before ++ calls), (makeAll sink w calls).2) := by
  induction calls generalizing w before with
  | nil => simp [makeAll]
  | cons call calls ih =>
    have first : call.make sink.listing (w, before) =
        (((call.make sink w).1, before ++ [call]), (call.make sink w).2) := by
      cases call <;> rfl
    simp only [makeAll, first, ih]
    cases (call.make sink w).2 <;> simp

/-! ## Events of a recorder -/

/-- What a call of a run makes a recorder write, in order. -/
def Call.written : Call Float32 → List ReportCall
  | .log m => [.metrics m]
  | .checkpoint _ best => [.flows (pairLines best), .finish]
  | .fitEnd _ (some best) => [.flows (pairLines best), .finish]
  | .fitEnd _ none => [.finish]
  | .step _ | .newBest _ => []

/-- A recorder hears a call, or it is asked for its refusal. -/
inductive RecorderEvent where
  | hear (call : Call Float32)
  | take

namespace RecorderEvent

def isTake : RecorderEvent → Bool
  | hear _ => false
  | take => true

/-- The calls to the writer that an event leads to. -/
def calls : RecorderEvent → List ReportCall
  | hear call => call.written
  | take => []

end RecorderEvent

namespace Recorder

variable {r : Recorder ω ε}

/-- Goes through some events: the recorder after them and what each question was answered. -/
def drive (sink : Sink ω ε) (r : Recorder ω ε) :
    List RecorderEvent → Recorder ω ε × List (Option ε)
  | [] => (r, [])
  | .hear call :: events => drive sink (r.hear sink call) events
  | .take :: events =>
    let (answer, r) := r.takeFault
    let (r, answers) := drive sink r events
    (r, answer :: answers)

/-- The recorder after some calls to its writer: it has kept the earliest refusal. -/
def after (sink : Sink ω ε) (r : Recorder ω ε) (calls : List ReportCall) : Recorder ω ε where
  writer := (ReportCall.makeAll sink r.writer calls).1
  fault := r.fault.or (ReportCall.makeAll sink r.writer calls).2.head?

theorem after_append (calls more : List ReportCall) :
    r.after sink (calls ++ more) = (r.after sink calls).after sink more := by
  simp only [after, ReportCall.makeAll_append, List.head?_append, Option.or_assoc]

theorem call_eq (call : ReportCall) :
    r.call (call.make sink ·) = r.after sink [call] := by
  obtain ⟨writer, fault⟩ := r
  simp only [Recorder.call, after, ReportCall.makeAll]
  rcases call.make sink writer with ⟨writer, refused | done⟩
  · cases fault <;> rfl
  · cases fault <;> rfl

/-- A call that is heard leads to all its calls to the writer, refused or not. -/
theorem hear_eq (call : Call Float32) : r.hear sink call = r.after sink call.written := by
  have save (best : Flows Float32) :
      (r.saveFlows sink best).call sink.finish =
        r.after sink [.flows (pairLines best), .finish] := by
    have first : r.saveFlows sink best = r.after sink [.flows (pairLines best)] :=
      call_eq (.flows (pairLines best))
    rw [first]
    exact (call_eq .finish).trans (after_append [.flows (pairLines best)] [.finish]).symm
  have nothing : r = r.after sink [] := by
    obtain ⟨writer, fault⟩ := r
    cases fault <;> rfl
  cases call with
  | step | newBest => exact nothing
  | log m => exact call_eq (.metrics m)
  | checkpoint step best => exact save best
  | fitEnd summary best =>
    cases best with
    | none => exact call_eq .finish
    | some best => exact save best

theorem drive_append (events more : List RecorderEvent) :
    drive sink r (events ++ more) =
      ((drive sink (drive sink r events).1 more).1,
        (drive sink r events).2 ++ (drive sink (drive sink r events).1 more).2) := by
  induction events generalizing r with
  | nil => rfl
  | cons event events ih =>
    cases event with
    | hear call => exact ih
    | take => simp only [List.cons_append, drive, ih]

/-- Between two questions the calls to the writer add up. -/
theorem drive_hears {events : List RecorderEvent} (heard : ∀ e ∈ events, e.isTake = false) :
    drive sink r events = (r.after sink (events.flatMap RecorderEvent.calls), []) := by
  induction events generalizing r with
  | nil =>
    obtain ⟨writer, fault⟩ := r
    cases fault <;> rfl
  | cons event events ih =>
    rw [List.forall_mem_cons] at heard
    cases event with
    | take => cases heard.1
    | hear call =>
      rw [drive, ih heard.2, hear_eq, ← after_append]
      rfl

theorem writer_drive (events : List RecorderEvent) :
    (drive sink r events).1.writer =
      (ReportCall.makeAll sink r.writer (events.flatMap RecorderEvent.calls)).1 := by
  induction events generalizing r with
  | nil => rfl
  | cons event events ih =>
    rw [List.flatMap_cons, ReportCall.makeAll_append]
    cases event with
    | hear call => exact ih.trans (by rw [hear_eq]; rfl)
    | take => exact ih

theorem length_drive (events : List RecorderEvent) :
    (drive sink r events).2.length = events.countP RecorderEvent.isTake := by
  induction events generalizing r with
  | nil => rfl
  | cons event events ih =>
    cases event with
    | hear call => exact ih.trans (List.countP_cons_of_neg Bool.false_ne_true).symm
    | take => exact (congrArg (· + 1) ih).trans (List.countP_cons_of_pos rfl).symm

/-- After a question, as at the start, no refusal is kept. -/
theorem fault_drive {before : List RecorderEvent} (w : ω)
    (fresh : ∀ e ∈ before.getLast?, e.isTake = true) :
    (drive sink (start w) before).1.fault = none := by
  rcases List.eq_nil_or_concat' before with rfl | ⟨events, event, rfl⟩
  · rfl
  · have last : event.isTake = true := fresh event List.getLast?_concat
    cases event with
    | hear call => cases last
    | take =>
      rw [drive_append]
      rfl

/-- What a recorder over a fresh writer has made of some events. -/
structure Answered (sink : Sink ω ε) (w : ω) (events : List RecorderEvent)
    (out : Recorder ω ε × List (Option ε)) : Prop where
  /-- The writer has been given every call. -/
  writer : out.1.writer =
    (ReportCall.makeAll sink w (events.flatMap RecorderEvent.calls)).1
  /-- Every question has its answer. -/
  length : out.2.length = events.countP RecorderEvent.isTake
  /-- It is the earliest refusal of a call since the question before, or since the start. -/
  answer {before recent later : List RecorderEvent} :
    events = before ++ recent ++ .take :: later →
    (∀ e ∈ before.getLast?, e.isTake = true) → (∀ e ∈ recent, e.isTake = false) →
    out.2[before.countP RecorderEvent.isTake]? =
      some (ReportCall.makeAll sink
        (ReportCall.makeAll sink w (before.flatMap RecorderEvent.calls)).1
        (recent.flatMap RecorderEvent.calls)).2.head?

theorem drive_answered (sink : Sink ω ε) (w : ω) (events : List RecorderEvent) :
    Answered sink w events (drive sink (start w) events) where
  writer := writer_drive events
  length := length_drive events
  answer := by
    rintro before recent later rfl fresh heard
    have none : (drive sink (start w) before).1.fault = none := fault_drive w fresh
    have writer : (drive sink (start w) before).1.writer = _ := writer_drive before
    have length : (drive sink (start w) before).2.length = _ := length_drive before
    rw [List.append_assoc, drive_append, drive_append, drive_hears heard, ← length]
    dsimp only
    rw [List.nil_append, List.getElem?_append_right (Nat.le_refl _), Nat.sub_self]
    simp only [drive, takeFault, after, none, writer, List.getElem?_cons_zero, Option.none_or]
    rfl

end Recorder

/-- Whatever the writer answers and whenever the refusals are asked for, a recorder gives its writer
the calls of all events in their order, and answers each question with the earliest refusal since
the one before. -/
theorem refusals_of_events (sink : Sink ω ε) (w : ω) (events : List RecorderEvent) :
    Recorder.Answered sink w events (Recorder.drive sink (.start w) events) ∧
      (Recorder.drive sink.listing (.start (w, [])) events).1.writer.2 =
        events.flatMap RecorderEvent.calls := by
  refine ⟨Recorder.drive_answered sink w events, ?_⟩
  rw [Recorder.writer_drive, ReportCall.makeAll_listing]
  exact List.nil_append _

/-- Numbers its calls and refuses every second one. -/
def Sink.fickle : Sink Nat Nat :=
  let numbered (n : Nat) : Nat × Except Nat Unit := (n + 1, if n % 2 = 0 then .ok () else .error n)
  { writeMetrics n _ := numbered n
    writeFlows n _ := numbered n
    writeEdges n _ := numbered n
    writeClusters n _ := numbered n
    writeTrips n _ := numbered n
    finish := numbered }

/-- Of four calls two are refused, and each refusal is told to the question that follows it. -/
theorem refusals_of_events_sample :
    let logged : RecorderEvent := .hear (.log ⟨0, 0, 0⟩)
    let ended : RecorderEvent := .hear (.fitEnd ⟨0, none, none, none, false⟩ none)
    let out := Recorder.drive .fickle (.start 0) [logged, logged, .take, logged, .take, ended, .take]
    out.1.writer = 4 ∧ out.2[0]? = some (some 1) ∧ out.2[1]? = some none ∧
      out.2[2]? = some (some 3) := by
  intro logged ended out
  have answered := (refusals_of_events Sink.fickle 0
    [logged, logged, .take, logged, .take, ended, .take]).1
  have first : [logged, logged, .take, logged, .take, ended, .take] =
      [] ++ [logged, logged] ++ .take :: [logged, .take, ended, .take] := rfl
  have second : [logged, logged, .take, logged, .take, ended, .take] =
      [logged, logged, .take] ++ [logged] ++ .take :: [ended, .take] := rfl
  have third : [logged, logged, .take, logged, .take, ended, .take] =
      [logged, logged, .take, logged, .take] ++ [ended] ++ .take :: [] := rfl
  refine ⟨answered.writer, ?_, ?_, ?_⟩
  · exact answered.answer first (by simp) (by simp [logged, RecorderEvent.isTake])
  · exact (answered.answer second (by simp [RecorderEvent.isTake])
      (by simp [logged, RecorderEvent.isTake])).trans (by decide)
  · exact (answered.answer third (by simp [RecorderEvent.isTake])
      (by simp [ended, RecorderEvent.isTake])).trans (by decide)

end RoadFlow
