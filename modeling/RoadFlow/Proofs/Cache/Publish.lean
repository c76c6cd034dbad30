import RoadFlow.Cache.Publish
import RoadFlow.Proofs.Storage.Reading

/-!
# What publishing leaves

A file that is published stands at its path with all its bytes, and is read from there
(`read_publish`). Of the other files, only the one that it was written to at first can be gone
(`publish_ok`).
-/

namespace RoadFlow.Cache

open Storage (FileTree Path Location)

variable {files files' : FileTree} {p source target : Path} {bytes : List UInt8} {l : Location}

theorem settle_eq_ok {changed : Except Storage.Fault FileTree} :
    files.settle changed = (files', .ok ()) ↔ changed = .ok files' := by
  cases changed with
  | ok t => simp [FileTree.settle]
  | error fault => simp [FileTree.settle]

theorem runSteps_cons {step : FileStep} {rest : List FileStep} :
    runSteps files (step :: rest) = (files', .ok ()) ↔
      ∃ mid, step.run files = (mid, .ok ()) ∧ runSteps mid rest = (files', .ok ()) := by
  rw [runSteps]
  constructor
  · intro h
    split at h
    · rename_i mid done
      exact ⟨mid, done, h⟩
    · rename_i failed
      exact absurd h (failed files')
  · rintro ⟨mid, done, h⟩
    rw [done]
    exact h

namespace FileStep

theorem file?_makeDirectories (h : (makeDirectories p).run files = (files', .ok ())) :
    files'.file? l = files.file? l := by
  have same : files' = (files.makeDirectories p).1 := (congrArg Prod.fst h).symm
  rw [same, FileTree.file?_makeDirectories]

theorem file?_create (h : (create p).run files = (files', .ok ())) :
    files'.file? l = if l = p.location then some [] else files.file? l :=
  FileTree.file?_write (settle_eq_ok.mp h)

theorem file?_append (h : (append p bytes).run files = (files', .ok ())) :
    ∃ held, files.file? p.location = some held ∧
      ∀ l, files'.file? l = if l = p.location then some (held ++ bytes) else files.file? l := by
  obtain ⟨held, found, written⟩ := bind_eq_ok.mp (settle_eq_ok.mp h)
  exact ⟨held, FileTree.read_ok found, fun _ => FileTree.file?_write written⟩

theorem file?_rename (h : (rename source target).run files = (files', .ok ())) :
    ∃ held, files.file? source.location = some held ∧
      ∀ l, files'.file? l =
        if l = target.location then some held
        else if l = source.location then none
        else files.file? l :=
  FileTree.file?_rename (settle_eq_ok.mp h)

end FileStep

/-- What the operations of a publication come to when none of them fails. -/
theorem publishSteps_ok (h : runSteps files (publishSteps source target bytes) = (files', .ok ())) :
    files'.file? l =
      if l = target.location then some bytes
      else if l = source.location then none
      else files.file? l := by
  unfold publishSteps at h
  obtain ⟨nested, made, h⟩ := runSteps_cons.mp h
  obtain ⟨started, created, h⟩ := runSteps_cons.mp h
  obtain ⟨filled, appended, h⟩ := runSteps_cons.mp h
  obtain ⟨final, renamed, h⟩ := runSteps_cons.mp h
  have created (l : Location) : started.file? l =
      if l = source.location then some [] else nested.file? l := FileStep.file?_create created
  obtain ⟨held, before, appended⟩ := FileStep.file?_append appended
  obtain ⟨moved, full, renamed⟩ := FileStep.file?_rename renamed
  have same : files' = final := by
    cases h
    rfl
  have empty : held = [] := by
    rw [created, if_pos rfl] at before
    exact (Option.some.inj before).symm
  have whole : moved = bytes := by
    rw [appended, if_pos rfl, empty, List.nil_append] at full
    exact (Option.some.inj full).symm
  rw [same, renamed, whole]
  by_cases there : l = target.location
  · rw [if_pos there, if_pos there]
  · rw [if_neg there, if_neg there]
    by_cases here : l = source.location
    · rw [if_pos here, if_pos here]
    · rw [if_neg here, if_neg here, appended, if_neg here, created, if_neg here,
        FileStep.file?_makeDirectories made]

theorem publishSteps_read
    (h : runSteps files (publishSteps source target bytes) = (files', .ok ())) :
    files'.read target = .ok bytes := by
  have stands : files'.file? target.location = some bytes := by
    rw [publishSteps_ok h, if_pos rfl]
  unfold publishSteps at h
  obtain ⟨nested, -, h⟩ := runSteps_cons.mp h
  obtain ⟨started, -, h⟩ := runSteps_cons.mp h
  obtain ⟨filled, -, h⟩ := runSteps_cons.mp h
  obtain ⟨final, renamed, h⟩ := runSteps_cons.mp h
  cases h
  obtain ⟨moved, -, found⟩ := FileTree.read_rename (settle_eq_ok.mp renamed)
  rw [FileTree.read_ok found] at stands
  rwa [← Option.some.inj stands]

/-- What runs in a publication that succeeds. -/
theorem publish_steps (h : publish files target bytes = (files', .ok ())) :
    runSteps files (publishSteps ((directoryOf target).join (freshName files (directoryOf target)))
      target bytes) = (files', .ok ()) := by
  unfold publish at h
  dsimp only at h
  split at h
  · rename_i published done
    obtain rfl : published = files' := congrArg Prod.fst h
    exact done
  · have failed := congrArg Prod.snd h
    cases failed

theorem publish_ok (h : publish files target bytes = (files', .ok ())) :
    ∃ temporary, ∀ l, files'.file? l =
      if l = target.location then some bytes
      else if l = temporary then none
      else files.file? l :=
  ⟨_, fun _ => publishSteps_ok (publish_steps h)⟩

theorem read_publish (h : publish files target bytes = (files', .ok ())) :
    files'.read target = .ok bytes :=
  publishSteps_read (publish_steps h)

end RoadFlow.Cache
