import RoadFlow.Proofs.Except
import RoadFlow.Proofs.Fit.Best
import RoadFlow.Proofs.Fit.Calls

/-!
# Fits that go on from a checkpoint

A checkpoint's flows are cut off at zero and its addend is kept or left out as the settings say, but
only for the steps to come. The checkpoint itself is the best of the fit as it was given, and it is
handed out so until a finite loss is told that is below its loss (`handed_out_of_resumed`). Below a
loss that is not a number there is none, so such a checkpoint stays the best for ever
(`best_of_resumed`).
-/

namespace RoadFlow

variable {α β σ : Type}

/-- Flows with a row for each pair of a matrix and a column for each hour. -/
structure Flows.Shaped (m : AssignmentMatrix) (b : Flows α) : Prop where
  clusterCount : b.clusterCount = m.clusterCount
  rows : b.pairs.rows = m.width
  cols : b.pairs.cols = hoursPerDay

/-- Flows of which none is negative, with an addend for each hour if the settings ask for one. -/
structure Flows.Valid (c : FitSettings Float32) (b : Flows Float32) : Prop where
  flows : ∀ x ∈ b.pairs.entries, ¬ x < 0
  bias : b.bias.isSome = c.useBias
  hours : ∀ addend ∈ b.bias, addend.size = hoursPerDay

/-- The flows that are handed out in a call. -/
def Call.flows? : Call α → Option (Flows α)
  | .newBest best | .checkpoint _ best => some best
  | .fitEnd _ best => best
  | _ => none

theorem Grid.size_rowsOfWidth {g : Grid α} {width : Nat} {rows : Array (Vector α width)}
    (found : g.rowsOfWidth? width = some rows) : g.cols = width ∧ rows.size = g.rows := by
  unfold rowsOfWidth? at found
  split at found
  · rename_i cols
    subst cols
    cases found
    exact ⟨rfl, Vector.size_toArray _⟩
  · cases found

variable [Scalar α] [Scalar β] [Widens α β]

namespace Fit

variable {m : AssignmentMatrix} {t : Target α} {c : FitSettings α} {checkpoint : Flows α}
  {f fresh : Fit α}

/-! ## Checkpoints -/

theorem cut_resumedFlows [Scalar.Lawful α] {pairs : Array (Hourly α)}
    (taken : resumedFlows m checkpoint = .ok pairs) :
    checkpoint.pairs.rows = m.width ∧ checkpoint.pairs.cols = hoursPerDay ∧
      pairs.size = m.width ∧ ∀ row ∈ pairs, row.map Scalar.atLeastZero = row := by
  unfold resumedFlows at taken
  dsimp only at taken
  split at taken
  · cases taken
  · rename_i rows found
    split at taken
    · cases taken
    · rename_i size
      rw [not_not] at size
      cases taken
      obtain ⟨cols, height⟩ := Grid.size_rowsOfWidth found
      refine ⟨height.symm.trans size, cols, (Array.size_map ..).trans size, fun row mem => ?_⟩
      obtain ⟨values, -, rfl⟩ := Array.mem_map.mp mem
      rw [Vector.map_map]
      exact Vector.map_congr_left fun x _ => Scalar.Lawful.cut_cut x

theorem isSome_resumedBias {bias : Option (Array α)} {addend : Option (Hourly α)}
    (taken : resumedBias c bias = .ok addend) : addend.isSome = c.useBias := by
  unfold resumedBias at taken
  cases used : c.useBias with
  | false =>
    rw [used] at taken
    cases taken
    rfl
  | true =>
    rw [used] at taken
    cases bias with
    | none =>
      cases taken
      rfl
    | some row =>
      have taken : (hourlyBias row).map some = .ok addend := taken
      cases read : hourlyBias row with
      | error fault =>
        rw [read] at taken
        cases taken
      | ok hours =>
        rw [read] at taken
        cases taken
        rfl

/-- A fit that goes on from a checkpoint is sound, whatever the checkpoint's flows and addend, and
the checkpoint is its best. -/
theorem resume_sound [Scalar.Lawful α] (resumed : Fit.resume m t c checkpoint = .ok fresh) :
    fresh.Sound m t c ∧ checkpoint.Shaped m ∧ fresh.stepsTaken = checkpoint.step ∧
      fresh.best = some checkpoint := by
  obtain ⟨-, clusters, pairs, flows, addend, bias, rfl⟩ := resume_eq_ok.mp resumed
  obtain ⟨rows, cols, width, cut⟩ := cut_resumedFlows flows
  refine ⟨⟨rfl, rfl, ?_, ?_, ?_⟩, ⟨clusters, rows, cols⟩, rfl, rfl⟩
  · exact (Array.size_map ..).trans width
  · intro row mem
    obtain ⟨values, held, rfl⟩ := Array.mem_map.mp mem
    exact cut values held
  · rw [← isSome_resumedBias bias]
    exact Option.isSome_map

theorem Begun.sound [Scalar.Lawful α] (begun : f.Begun m t c) : f.Sound m t c := by
  cases begun with
  | start started => exact (start_sound started).1
  | resume checkpoint resumed => exact (resume_sound resumed).1

theorem Sound.cut_entry (sound : f.Sound m t c) {x : α} (mem : x ∈ f.grid.entries) :
    Scalar.atLeastZero x = x := by
  obtain ⟨row, held, entry⟩ := List.mem_flatMap.mp mem
  obtain ⟨fitted, pair, rfl⟩ := Array.mem_map.mp (Array.mem_toList_iff.mp held)
  have cut := sound.cut fitted pair
  have entry : x ∈ fitted.values := Vector.mem_toList_iff.mp entry
  obtain ⟨i, hi, rfl⟩ := Vector.mem_iff_getElem.mp entry
  have same : (fitted.values.map Scalar.atLeastZero)[i] = fitted.values[i] := by rw [cut]
  rwa [Vector.getElem_map] at same

theorem Sound.shaped (sound : f.Sound m t c) : f.current.Shaped m where
  clusterCount := congrArg AssignmentMatrix.clusterCount sound.matrix
  rows := (Array.size_map ..).trans sound.width
  cols := rfl

/-! ## The best of a fit that has one -/

/-- A fit that started from its best flows has these as long as no finite loss is below theirs, and
flows that a step started from afterwards. -/
theorem best_advanceMany (best : f.best = some checkpoint) (n : Nat) :
    ((f.advanceMany n).1.best = some checkpoint ∧
      ∀ x ∈ (f.advanceMany n).2, Scalar.isFinite x.loss = true →
        Scalar.lt x.loss checkpoint.loss = false) ∨
    ((∃ i < n, (f.advanceMany n).1.best = some (f.advanceMany i).1.current) ∧
      ∃ x ∈ (f.advanceMany n).2, Scalar.isFinite x.loss = true ∧
        Scalar.lt x.loss checkpoint.loss = true) := by
  induction n with
  | zero => exact .inl ⟨best, nofun⟩
  | succ n ih =>
    rw [advanceMany_succ]
    let g := (f.advanceMany n).1
    have after : g.advance.fit.best = if g.improves g.current.loss then _ else _ := best_advance g
    cases improved : g.improves g.current.loss with
    | true =>
      rw [improved, if_pos rfl] at after
      obtain ⟨finite, below⟩ := (improves_iff g _).mp improved
      refine .inr ⟨⟨n, Nat.lt_succ_self n, after⟩, ?_⟩
      rcases ih with ⟨kept, -⟩ | ⟨-, x, mem, lower⟩
      · exact ⟨g.advance.metrics, List.mem_concat_self, finite, below checkpoint kept⟩
      · exact ⟨x, List.mem_append_left _ mem, lower⟩
    | false =>
      rw [improved, if_neg Bool.false_ne_true] at after
      rcases ih with ⟨kept, above⟩ | ⟨⟨i, early, held⟩, x, mem, lower⟩
      · refine .inl ⟨after.trans kept, ?_⟩
        rw [List.forall_mem_append, List.forall_mem_singleton]
        refine ⟨above, fun finite => ?_⟩
        obtain ⟨b, found, worse⟩ := worse_of_improves improved finite
        rw [Option.some.inj (kept.symm.trans found)]
        exact worse
      · exact .inr ⟨⟨i, Nat.lt_succ_of_lt early, after.trans held⟩, x,
          List.mem_append_left _ mem, lower⟩

/-! ## Flows that are handed out -/

/-- What a run tells is due on one of its steps, or tells that it is over. -/
theorem mem_exchanges {o : Observer α σ} {observer : σ} {call : Call α}
    (heard : .told call ∈ f.exchanges o observer) :
    (∃ i, call ∈ (f.advanceMany i).1.stepCalls) ∨
      call = .fitEnd (f.run o observer).summary (f.run o observer).fit.best := by
  obtain ⟨k, ran⟩ := f.exists_ran o observer
  rw [ran.exchanges, script_eq, List.mem_append] at heard
  rcases heard with step | last
  · obtain ⟨i, -, mem⟩ := List.mem_flatMap.mp step
    exact .inl ⟨i, by simpa using mem⟩
  · exact .inr (by simpa [Exchange.ending] using last)

/-- The flows told of on a step are those that it started from or the best after it. -/
theorem flows_stepCalls {call : Call α} {b : Flows α} (due : call ∈ f.stepCalls)
    (carried : call.flows? = some b) : b = f.current ∨ f.advance.fit.best = some b := by
  simp only [stepCalls, List.mem_append, List.mem_ite_nil_right, List.mem_singleton, List.mem_map,
    Option.mem_toList] at due
  rcases due with ((rfl | ⟨-, rfl⟩) | ⟨-, rfl⟩) | ⟨-, best, held, rfl⟩
  · cases carried
  · exact .inl (Option.some.inj carried).symm
  · cases carried
  · exact .inr (held.trans carried)

theorem newBest_stepCalls {b : Flows α} (due : .newBest b ∈ f.stepCalls) : b = f.current := by
  simp only [stepCalls, List.mem_append, List.mem_ite_nil_right, List.mem_singleton, List.mem_map]
    at due
  rcases due with ((due | ⟨-, due⟩) | ⟨-, due⟩) | ⟨-, _, -, due⟩
  · cases due
  · exact Call.newBest.inj due
  · cases due
  · cases due

/-- The flows that a fit hands out: its best, those as they are if it has none, or those that a run
tells of. -/
inductive HandsOut (f : Fit α) : Flows α → Prop
  | best {b : Flows α} (held : f.best = some b) : HandsOut f b
  | bestOrCurrent : HandsOut f f.bestOrCurrent
  | told {σ : Type} (o : Observer α σ) (observer : σ) {call : Call α} {b : Flows α}
      (heard : .told call ∈ f.exchanges o observer) (carried : call.flows? = some b) : HandsOut f b

/-- What is handed out is what a step starts from, or the best after some steps. -/
theorem HandsOut.exists_step {b : Flows α} (handed : f.HandsOut b) :
    ∃ n, b = (f.advanceMany n).1.current ∨ (f.advanceMany n).1.best = some b := by
  cases handed with
  | best held => exact ⟨0, .inr held⟩
  | bestOrCurrent =>
    refine ⟨0, ?_⟩
    unfold Fit.bestOrCurrent
    cases held : f.best with
    | none => exact .inl rfl
    | some b => exact .inr held
  | told o observer heard carried =>
    rcases mem_exchanges heard with ⟨i, due⟩ | rfl
    · rcases flows_stepCalls due carried with rfl | held
      · exact ⟨i, .inl rfl⟩
      · exact ⟨i + 1, .inr (by rwa [advanceMany_succ])⟩
    · obtain ⟨k, ran⟩ := f.exists_ran o observer
      rw [ran.fit] at carried
      exact ⟨k, .inr carried⟩

/-- However a fit was driven, it hands out flows that one of its steps started from. Only as long
as no finite loss was told that is below the best one that it started with, it may be these. -/
theorem HandsOut.of_driven {b : Flows α} {told : List (Metrics α)} (handed : f.HandsOut b)
    (driven : Driven fresh told f) (best : fresh.best = some checkpoint) :
    (∃ i, b = (fresh.advanceMany i).1.current) ∨
      b = checkpoint ∧ ∀ x ∈ told, Scalar.isFinite x.loss = true →
        Scalar.lt x.loss checkpoint.loss = false := by
  obtain ⟨n, handed⟩ := handed.exists_step
  have later : fresh.advanceMany (told.length + n) =
      ((f.advanceMany n).1, told ++ (f.advanceMany n).2) := by
    rw [advanceMany_add, driven.advanceMany_eq]
  rcases handed with rfl | held
  · exact .inl ⟨told.length + n, by rw [later]⟩
  · have kept := best_advanceMany best (told.length + n)
    rw [later] at kept
    rcases kept with ⟨same, above⟩ | ⟨⟨i, -, found⟩, -⟩
    · exact .inr ⟨Option.some.inj (held.symm.trans same),
        fun x mem => above x (List.mem_append_left _ mem)⟩
    · exact .inl ⟨i, Option.some.inj (held.symm.trans found)⟩

/-! ## Numbers in 32 bits -/

section

variable {m : AssignmentMatrix} {t : Target Float32} {c : FitSettings Float32}
  {checkpoint b : Flows Float32} {f fresh : Fit Float32} {told : List (Metrics Float32)}

theorem Sound.valid (sound : f.Sound m t c) : f.current.Valid c where
  flows x mem := Single.not_lt_zero (sound.cut_entry mem)
  bias := by
    rw [← sound.bias]
    exact (Option.isSome_map ..).trans (Option.isSome_map ..)
  hours := by
    intro addend mem
    obtain ⟨row, -, rfl⟩ := Option.map_eq_some_iff.mp mem
    exact row.size_toArray

/-- The best of a checkpoint's loss and the finite losses that were told since. -/
structure Least (first : Float32) (told : List (Metrics Float32)) (b : Flows Float32) : Prop where
  number : b.loss.isNaN = false
  le_first : b.loss ≤ first
  le_told : ∀ x ∈ told, x.loss.isFinite = true → b.loss ≤ x.loss
  reached : b.loss = first ∨ ∃ x ∈ told, x.loss.isFinite = true ∧ b.loss = x.loss

theorem improves_iff_lt (best : f.best = some b) (loss : Float32) :
    f.improves loss = true ↔ loss.isFinite = true ∧ loss < b.loss := by
  rw [improves_iff, best]
  refine and_congr_right fun _ => ⟨fun below => Single.scalar_lt.mp (below b rfl), ?_⟩
  rintro below b ⟨⟩
  exact Single.scalar_lt.mpr below

variable {first loss : Float32}

/-- A finite loss is below the least one exactly if it is below all of those. -/
theorem Least.lt_iff (least : Least first told b) (number : first.isNaN = false)
    (finite : loss.isFinite = true) :
    loss < b.loss ↔ loss < first ∧ ∀ x ∈ told, x.loss.isFinite = true → loss < x.loss := by
  have itself := Single.isNaN_of_isFinite finite
  constructor
  · intro lower
    refine ⟨Single.lt_of_lt_of_le itself least.number number lower least.le_first, ?_⟩
    intro x mem finite
    exact Single.lt_of_lt_of_le itself least.number (Single.isNaN_of_isFinite finite) lower
      (least.le_told x mem finite)
  · rintro ⟨below, all⟩
    rcases least.reached with same | ⟨x, mem, finite, same⟩
    · rwa [same]
    · rw [same]
      exact all x mem finite

/-- A step keeps the best, or takes its place with a loss below it. -/
theorem Least.advance (least : Least first told b) (number : first.isNaN = false)
    (best : f.best = some b) :
    ∃ b', f.advance.fit.best = some b' ∧ Least first (told ++ [f.advance.metrics]) b' := by
  have after := best_advance f
  have improves := improves_iff_lt best f.current.loss
  cases improved : f.improves f.current.loss with
  | true =>
    rw [improved, if_pos rfl] at after
    obtain ⟨finite, lower⟩ := improves.mp improved
    obtain ⟨below, all⟩ := (least.lt_iff number finite).mp lower
    have itself := Single.isNaN_of_isFinite finite
    refine ⟨f.current, after, itself, Single.le_of_lt itself number below, ?_, ?_⟩
    · rw [List.forall_mem_append, List.forall_mem_singleton]
      refine ⟨fun x mem finite => ?_, fun _ => Single.le_refl itself⟩
      exact Single.le_of_lt itself (Single.isNaN_of_isFinite finite) (all x mem finite)
    · exact .inr ⟨f.advance.metrics, List.mem_concat_self, finite, rfl⟩
  | false =>
    rw [improved, if_neg Bool.false_ne_true] at after
    refine ⟨b, after.trans best, least.number, least.le_first, ?_, ?_⟩
    · rw [List.forall_mem_append, List.forall_mem_singleton]
      refine ⟨least.le_told, fun finite => ?_⟩
      rw [← Single.not_lt_iff (Single.isNaN_of_isFinite finite) least.number]
      intro lower
      have contrary := improves.mpr ⟨finite, lower⟩
      rw [improved] at contrary
      cases contrary
    · refine least.reached.imp_right ?_
      rintro ⟨x, mem, same⟩
      exact ⟨x, List.mem_append_left _ mem, same⟩

theorem least_advanceMany (number : checkpoint.loss.isNaN = false) (best : f.best = some checkpoint)
    (n : Nat) :
    ∃ b, (f.advanceMany n).1.best = some b ∧ Least checkpoint.loss (f.advanceMany n).2 b := by
  induction n with
  | zero => exact ⟨checkpoint, best, number, Single.le_refl number, nofun, .inl rfl⟩
  | succ n ih =>
    obtain ⟨b, best, least⟩ := ih
    rw [advanceMany_succ]
    exact least.advance number best

/-- Below a loss that is not a number there is none. -/
theorem best_advanceMany_of_isNaN (nan : checkpoint.loss.isNaN = true)
    (best : f.best = some checkpoint) (n : Nat) : (f.advanceMany n).1.best = some checkpoint := by
  rcases best_advanceMany best n with ⟨kept, -⟩ | ⟨-, x, -, -, lower⟩
  · exact kept
  · exact absurd (Single.scalar_lt.mp lower) (Single.not_lt_of_isNaN nan)

end

end Fit

/-! ## What a resumed fit hands out -/

section

variable {m : AssignmentMatrix} {t : Target Float32} {c : FitSettings Float32}
  {checkpoint : Flows Float32} {f fresh : Fit Float32} {told : List (Metrics Float32)}

/-- Flows that a fit hands out have the shape of its matrix. They are the checkpoint that it went on
from, which is handed out as it was given until a finite loss is told that is below the
checkpoint's, or are valid. Flows that are told as better than all before are always valid. -/
theorem handed_out_of_resumed (resumed : Fit.resume m t c checkpoint = .ok fresh)
    (driven : Driven fresh told f) :
    (∀ b, f.HandsOut b → b.Shaped m ∧ (b = checkpoint ∨ b.Valid c)) ∧
    ((∀ x ∈ told, x.loss.isFinite = true → ¬ x.loss < checkpoint.loss) →
      f.best = some checkpoint) ∧
    ((∃ x ∈ told, x.loss.isFinite = true ∧ x.loss < checkpoint.loss) →
      ∀ b, f.HandsOut b → b.Valid c) ∧
    ∀ (σ : Type) (o : Observer Float32 σ) (observer : σ) (b : Flows Float32),
      .told (.newBest b) ∈ f.exchanges o observer → b.Valid c := by
  obtain ⟨sound, shaped, -, best⟩ := Fit.resume_sound resumed
  have entered (i : Nat) := sound.advanceMany i
  have taken := driven.advanceMany_eq
  refine ⟨?_, ?_, ?_, ?_⟩
  · intro b handed
    rcases handed.of_driven driven best with ⟨i, rfl⟩ | ⟨rfl, -⟩
    · exact ⟨(entered i).shaped, .inr (entered i).valid⟩
    · exact ⟨shaped, .inl rfl⟩
  · intro above
    have kept := Fit.best_advanceMany best told.length
    rw [taken] at kept
    rcases kept with ⟨same, -⟩ | ⟨-, x, mem, finite, lower⟩
    · exact same
    · exact absurd (Single.scalar_lt.mp lower) (above x mem finite)
  · rintro ⟨x, mem, finite, lower⟩ b handed
    rcases handed.of_driven driven best with ⟨i, rfl⟩ | ⟨-, above⟩
    · exact (entered i).valid
    · have contrary := above x mem finite
      rw [Single.scalar_lt.mpr lower] at contrary
      cases contrary
  · intro σ o observer b heard
    rcases Fit.mem_exchanges heard with ⟨i, due⟩ | last
    · have now := entered told.length
      rw [taken] at now
      rw [Fit.newBest_stepCalls due]
      exact (now.advanceMany i).valid
    · cases last

/-- A checkpoint of one flow for all pairs and hours, with an addend that the standard settings do
not ask for. -/
def Flows.sample (flow loss : Float32) : Flows Float32 :=
  ⟨2, .ofFn 4 hoursPerDay fun _ _ => flow, some (.replicate hoursPerDay 0), loss, 0, 0⟩

theorem Fit.resume_sample (flow loss : Float32) :
    ∃ fresh, Fit.resume .sample .sample .standard (.sample flow loss) = .ok fresh := by
  exact ⟨_, by
    rw [Fit.resume, inputFault?_sample]
    rfl⟩

theorem handed_out_of_resumed_sample :
    ∃ fresh, Fit.resume .sample .sample .standard (.sample (-1) (0 / 0)) = .ok fresh ∧
      Driven fresh [fresh.advance.metrics] fresh.advance.fit ∧
      fresh.advance.fit.best = some (.sample (-1) (0 / 0)) ∧
      ∀ b, fresh.advance.fit.HandsOut b →
        b.Shaped .sample ∧ (b = .sample (-1) (0 / 0) ∨ b.Valid .standard) := by
  obtain ⟨fresh, resumed⟩ := Fit.resume_sample (-1) (0 / 0)
  have driven := (Driven.start : Driven fresh [] fresh).step
  obtain ⟨handed, kept, -, -⟩ := handed_out_of_resumed resumed driven
  have nan : (0 / 0 : Float32).isNaN = true := by decide +kernel
  exact ⟨fresh, resumed, driven, kept fun x _ _ => Single.not_lt_of_isNaN nan, handed⟩

/-- Negative flows and an addend that nobody asked for are handed out at once. -/
theorem invalid_flows_handed_out :
    ∃ fresh, Fit.resume .sample .sample .standard (.sample (-1) 0) = .ok fresh ∧
      fresh.HandsOut (.sample (-1) 0) ∧
      (∃ x ∈ (Flows.sample (-1) 0).pairs.entries, x < 0) ∧
      (Flows.sample (-1) 0).bias.isSome ≠ FitSettings.standard.useBias := by
  obtain ⟨fresh, resumed⟩ := Fit.resume_sample (-1) 0
  obtain ⟨-, -, -, best⟩ := Fit.resume_sound resumed
  refine ⟨fresh, resumed, .best best, ⟨-1, ?_, ?_⟩, ?_⟩
  · exact List.mem_cons_self
  · decide +kernel
  · decide

/-- A resumed fit always has best flows. If the checkpoint's loss is a number, theirs is the least
of it and of the finite losses told since, and a step finds better ones exactly if its loss is
finite and below all of these. If it is not a number, the checkpoint stays the best for ever. -/
theorem best_of_resumed (resumed : Fit.resume m t c checkpoint = .ok fresh)
    (driven : Driven fresh told f) :
    ∃ b, f.best = some b ∧
      (f.advance.improved = true → f.advance.fit.best = some f.current) ∧
      (checkpoint.loss.isNaN = false →
        Fit.Least checkpoint.loss told b ∧
        (f.advance.improved = true ↔ f.advance.metrics.loss.isFinite = true ∧
          f.advance.metrics.loss < checkpoint.loss ∧
          ∀ x ∈ told, x.loss.isFinite = true → f.advance.metrics.loss < x.loss)) ∧
      (checkpoint.loss.isNaN = true → b = checkpoint ∧ f.advance.improved = false) := by
  obtain ⟨-, -, -, best⟩ := Fit.resume_sound resumed
  have taken := driven.advanceMany_eq
  have moved (improved : f.advance.improved = true) : f.advance.fit.best = some f.current :=
    (Fit.best_advance f).trans (if_pos improved)
  cases nan : checkpoint.loss.isNaN with
  | false =>
    obtain ⟨b, held, least⟩ := Fit.least_advanceMany nan best told.length
    rw [taken] at held least
    refine ⟨b, held, moved, fun _ => ⟨least, ?_⟩, nofun⟩
    have improves : f.advance.improved = true ↔ _ := Fit.improves_iff_lt held f.current.loss
    rw [improves]
    exact and_congr_right fun finite => least.lt_iff nan finite
  | true =>
    have held := Fit.best_advanceMany_of_isNaN nan best told.length
    rw [taken] at held
    refine ⟨checkpoint, held, moved, nofun, fun _ => ⟨rfl, ?_⟩⟩
    rw [← Bool.not_eq_true]
    intro improved
    have better := (Fit.improves_iff_lt held f.current.loss).mp improved
    exact Single.not_lt_of_isNaN nan better.2

theorem best_of_resumed_sample :
    ∃ fresh b, Fit.resume .sample .sample .standard (.sample 0 1) = .ok fresh ∧
      Driven fresh [fresh.advance.metrics] fresh.advance.fit ∧
      fresh.advance.fit.best = some b ∧ Fit.Least 1 [fresh.advance.metrics] b := by
  obtain ⟨fresh, resumed⟩ := Fit.resume_sample 0 1
  have driven := (Driven.start : Driven fresh [] fresh).step
  obtain ⟨b, best, -, number, -⟩ := best_of_resumed resumed driven
  have one : (1 : Float32).isNaN = false := by decide +kernel
  exact ⟨fresh, b, resumed, driven, best, (number one).1⟩

/-- Zero flows with a loss that is not a number stay the best through all steps, and this loss is
at most none of theirs. -/
theorem best_never_found :
    ∃ fresh, Fit.resume .sample .sample .standard (.sample 0 (0 / 0)) = .ok fresh ∧
      ∀ n, (fresh.advanceMany n).1.best = some (.sample 0 (0 / 0)) ∧
        ∀ x ∈ (fresh.advanceMany n).2, ¬ (Flows.sample 0 (0 / 0)).loss ≤ x.loss := by
  obtain ⟨fresh, resumed⟩ := Fit.resume_sample 0 (0 / 0)
  obtain ⟨-, -, -, best⟩ := Fit.resume_sound resumed
  have nan : (Flows.sample 0 (0 / 0)).loss.isNaN = true := by decide +kernel
  refine ⟨fresh, resumed, fun n => ⟨?_, fun x _ => Single.not_le_of_isNaN nan⟩⟩
  exact Fit.best_advanceMany_of_isNaN nan best n

end

end RoadFlow
