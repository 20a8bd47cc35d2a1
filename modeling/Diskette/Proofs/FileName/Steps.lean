import Diskette.FileName

/-!
# Steps of a path

A path is told by where it starts from and by the names that it goes through. Joining the name of a
file to the path of a folder adds one step to it, however the path is written.
-/

set_option autoImplicit false

namespace Diskette.FileName

/-- The name of something in a folder, which is neither the folder itself nor the one above it. -/
structure IsEntry (file : String) : Prop where
  ne_empty : file ≠ ""
  ne_dot : file ≠ "."
  ne_up : file ≠ ".."
  no_slash : '/' ∉ file.toList

theorem splitAtSlashes_ne_nil (path : List Char) : splitAtSlashes path ≠ [] := by
  cases path with
  | nil => simp [splitAtSlashes]
  | cons c path =>
    unfold splitAtSlashes
    split
    · simp
    · split <;> simp

theorem splitAtSlashes_cons {c : Char} (hc : c ≠ '/') (path : List Char) :
    ∃ part parts, splitAtSlashes path = part :: parts ∧
      splitAtSlashes (c :: path) = (c :: part) :: parts := by
  obtain ⟨part, parts, h⟩ := List.exists_cons_of_ne_nil (splitAtSlashes_ne_nil path)
  exact ⟨part, parts, h, by rw [splitAtSlashes, if_neg hc, h]⟩

theorem no_slash_of_mem (path : List Char) : ∀ part ∈ splitAtSlashes path, '/' ∉ part := by
  induction path with
  | nil => simp [splitAtSlashes]
  | cons c path ih =>
    by_cases hc : c = '/'
    · simpa [splitAtSlashes, hc] using ih
    · obtain ⟨part, parts, h, hcons⟩ := splitAtSlashes_cons hc path
      rw [h] at ih
      rw [hcons]
      simpa [Ne.symm hc] using ih

theorem splitAtSlashes_append (front back : List Char) :
    splitAtSlashes (front ++ '/' :: back) = splitAtSlashes front ++ splitAtSlashes back := by
  induction front with
  | nil => simp [splitAtSlashes]
  | cons c front ih =>
    by_cases hc : c = '/'
    · simp [splitAtSlashes, hc, ih]
    · obtain ⟨part, parts, h, hcons⟩ := splitAtSlashes_cons hc front
      rw [hcons, List.cons_append, splitAtSlashes, if_neg hc, ih, h]
      rfl

theorem splitAtSlashes_of_no_slash {path : List Char} (h : '/' ∉ path) :
    splitAtSlashes path = [path] := by
  induction path with
  | nil => rfl
  | cons c path ih =>
    rw [List.mem_cons, not_or] at h
    rw [splitAtSlashes, if_neg (Ne.symm h.1), ih h.2]

theorem steps_of_no_slash {name : String} (h : '/' ∉ name.toList) :
    steps name = if name = "" ∨ name = "." then [] else [name.toList] := by
  have hempty : name.toList = [] ↔ name = "" := by rw [← String.toList_inj]; rfl
  have hdot : name.toList = ['.'] ↔ name = "." := by rw [← String.toList_inj]; rfl
  rw [steps, splitAtSlashes_of_no_slash h]
  by_cases he : name = "" ∨ name = "."
  · rw [if_pos he]
    rcases he with he | he <;> subst he <;> rfl
  · rw [if_neg he]
    rw [not_or, ← hempty, ← hdot] at he
    simp [he.1, he.2]

theorem IsEntry.steps {file : String} (h : IsEntry file) : steps file = [file.toList] := by
  rw [steps_of_no_slash h.no_slash, if_neg (not_or.mpr ⟨h.ne_empty, h.ne_dot⟩)]

theorem IsEntry.isAbsolute {file : String} (h : IsEntry file) : isAbsolute file = false := by
  rw [FileName.isAbsolute, beq_eq_false_iff_ne]
  intro hhead
  exact h.no_slash (List.mem_of_mem_head? hhead)

theorem steps_append (folder path : String) :
    steps (folder ++ "/" ++ path) = steps folder ++ steps path := by
  have hlist : (folder ++ "/" ++ path).toList = folder.toList ++ '/' :: path.toList := by simp
  rw [steps, hlist, splitAtSlashes_append, List.filter_append]
  rfl

theorem join_cases (folder : String) {file : String} (h : IsEntry file) :
    folder = "" ∧ join folder file = file ∨
      (∃ front, folder = front ++ "/" ++ "" ∧ join folder file = front ++ "/" ++ file) ∨
      folder ≠ "" ∧ join folder file = folder ++ "/" ++ file := by
  unfold join
  rw [if_neg (by simp [h.isAbsolute])]
  cases hlast : folder.toList.getLast? with
  | none =>
    obtain rfl : folder = "" := String.toList_inj.mp (List.getLast?_eq_none_iff.mp hlast)
    exact .inl ⟨rfl, by simp⟩
  | some c =>
    by_cases hc : c = '/'
    · subst hc
      obtain ⟨front, hfront⟩ := List.getLast?_eq_some_iff.mp hlast
      have hfolder : folder = String.ofList front ++ "/" ++ "" := by
        rw [← String.toList_inj, hfront]
        simp
      refine .inr (.inl ⟨String.ofList front, hfolder, ?_⟩)
      simp [hfolder]
    · have hne : folder ≠ "" := by
        rintro rfl
        cases hlast
      exact .inr (.inr ⟨hne, by simp [hc]⟩)

theorem steps_join (folder : String) {file : String} (h : IsEntry file) :
    steps (join folder file) = steps folder ++ [file.toList] := by
  rw [← h.steps]
  rcases join_cases folder h with ⟨rfl, hj⟩ | ⟨front, rfl, hj⟩ | ⟨-, hj⟩
  · rw [hj]
    rfl
  · rw [hj, steps_append, steps_append]
    simp [steps, splitAtSlashes]
  · rw [hj, steps_append]

theorem isAbsolute_join (folder : String) {file : String} (h : IsEntry file) :
    isAbsolute (join folder file) = isAbsolute folder := by
  rcases join_cases folder h with ⟨rfl, hj⟩ | ⟨front, rfl, hj⟩ | ⟨hne, hj⟩
  · rw [hj, h.isAbsolute]
    rfl
  · rw [hj]
    simp [isAbsolute]
  · obtain ⟨c, rest, hlist⟩ :=
      List.exists_cons_of_ne_nil fun he => hne (String.toList_inj.mp he)
    simp [hj, isAbsolute, hlist]

/-- A path to a file right inside of a folder: it starts from where the path of the folder does, and
goes one step on. -/
structure IsInside (folder file path : String) : Prop where
  isAbsolute : isAbsolute path = isAbsolute folder
  steps : steps path = steps folder ++ [file.toList]

theorem isInside_join (folder : String) {file : String} (h : IsEntry file) :
    IsInside folder file (join folder file) :=
  ⟨isAbsolute_join folder h, steps_join folder h⟩

theorem join_inj {folder file file' : String} (h : IsEntry file) (h' : IsEntry file')
    (he : join folder file = join folder file') : file = file' := by
  have hsteps := congrArg steps he
  rw [steps_join folder h, steps_join folder h'] at hsteps
  simpa [String.toList_inj] using hsteps

end Diskette.FileName
