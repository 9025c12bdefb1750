import NativeGate.Files
import NativeGate.Proofs.Outcome

/-!
What is written to a file is read from it (`read_of_write`). A path leads through directories only,
and the file that is written is none of them, so writing leads no path elsewhere.
-/

namespace NativeGate.Files

/-- The files after a text was written to a place. -/
def stored (f : Files) (place : List String) (text : String) : Files :=
  { f with texts := (place, text) :: f.texts.filter fun t => t.1 ≠ place }

section
variable {f : Files} {place directory : List String} (text : String)

theorem text?_stored (f : Files) (place : List String) :
    (f.stored place text).text? place = some text := by
  simp [stored, text?]

theorem text?_stored_of_ne (h : directory ≠ place) :
    (f.stored place text).text? directory = f.text? directory := by
  simp only [stored, text?, List.lookup_cons, beq_eq_false_iff_ne.2 h]
  induction f.texts with
  | nil => rfl
  | cons t ts ih =>
    by_cases hplace : t.1 = place
    · rw [List.filter_cons_of_neg (by simpa using hplace), ih, List.lookup_cons,
        beq_eq_false_iff_ne.2 (hplace ▸ h)]
    · rw [List.filter_cons_of_pos (by simpa using hplace), List.lookup_cons, List.lookup_cons, ih]

theorem isDirectory_stored (h : directory ≠ place) (hdirectory : f.isDirectory directory) :
    (f.stored place text).isDirectory directory := by
  unfold isDirectory at hdirectory ⊢
  rw [text?_stored_of_ne text h]
  simp only [Bool.and_eq_true, Bool.or_eq_true, List.any_eq_true] at hdirectory ⊢
  refine ⟨hdirectory.1, hdirectory.2.imp_right ?_⟩
  rintro ⟨t, ht, hprefix⟩
  by_cases hplace : t.1 = place
  · exact ⟨(place, text), List.mem_cons_self, hplace ▸ hprefix⟩
  · exact ⟨t, List.mem_cons_of_mem _ (List.mem_filter.2 ⟨ht, by simpa using hplace⟩), hprefix⟩

/-- A path that leads to what is no directory leads there when a text is there. -/
theorem follow_stored (hplace : f.isDirectory place = false) {start parts : List String}
    (h : f.follow start parts = .ok place) :
    (f.stored place text).follow start parts = .ok place := by
  induction parts generalizing start with
  | nil => exact h
  | cons part rest ih =>
    rw [follow] at h ⊢
    split at h
    · cases h
    rename_i hfile
    split at h
    · cases h
    rename_i hdirectory
    have hstart : f.isDirectory start := by simpa using hdirectory
    have hne : start ≠ place := by
      rintro rfl
      rw [hplace] at hstart
      cases hstart
    have hsome : ((f.stored place text).text? start).isSome = false := by
      rw [text?_stored_of_ne text hne]
      simpa using hfile
    rw [if_neg (by rw [hsome]; decide),
      if_neg (by rw [isDirectory_stored text hne hstart]; decide)]
    split at h
    · rw [if_pos ‹_›]
      exact ih h
    · rw [if_neg ‹_›]
      split at h
      · rw [if_pos ‹_›]
        exact ih h
      · rw [if_neg ‹_›]
        split at h
        · cases h
        · rw [if_neg ‹_›]
          exact ih h

theorem place_stored (hplace : f.isDirectory place = false) {path : String}
    (h : f.place path = .ok place) : (f.stored place text).place path = .ok place := by
  unfold Files.place at h ⊢
  split at h
  · cases h
  · rw [if_neg ‹_›]
    split at h
    · cases h
    · rw [if_neg ‹_›]
      split at h
      · cases h
      · rw [if_neg ‹_›]
        exact follow_stored text hplace h

end

theorem read_of_write {f f' : Files} {path text : String} (h : f.write path text = .ok f') :
    f'.read path = .ok text := by
  obtain ⟨place, hplace, h⟩ := Except.bind_eq_ok_iff.1 h
  split at h
  · cases h
  · rename_i hdirectory
    cases h
    show (f.stored place text).read path = .ok text
    rw [read, place_stored text (by simpa using hdirectory) hplace]
    dsimp only [Except.bind]
    rw [text?_stored]

end NativeGate.Files
