import Diskette.SaveStore

/-!
# Save stores as maps

A save store that can be written to is a map from names to bytes: a save is there from then on under
its own name, and the saves of other names are left alone.
-/

set_option autoImplicit false

namespace Diskette

/-- The states of a save store in which it takes every save, and keeps the saves as a map does. -/
structure SaveStore.ActsAsMap {σ : Type} [SaveStore σ] (writable : σ → Prop) : Prop where
  writable_store : ∀ s name data, writable s → writable (SaveStore.store s name data).1
  load_store : ∀ s name data other, writable s →
    SaveStore.load (SaveStore.store s name data).1 other =
      if other = name then some data else SaveStore.load s other

namespace SaveStore

variable {σ : Type} [SaveStore σ] {writable : σ → Prop}

/-- A state in which the store acts as a map: it takes saves, or it is read only. -/
def IsMap (writable : σ → Prop) (s : σ) : Prop :=
  writable s ∨ ∀ name data, (store s name data).1 = s

def SameSaves (s t : σ) : Prop := ∀ name, load s name = load t name

/-- A store that takes saves is nothing but the saves that it holds. -/
def Extensional (writable : σ → Prop) : Prop :=
  ∀ s t : σ, writable s → writable t → SameSaves s t → s = t

theorem ActsAsMap.store_comm (h : ActsAsMap writable) {s : σ} (hw : writable s)
    {name name' : String} (hn : name ≠ name') (data data' : Bytes) :
    SameSaves (store (store s name data).1 name' data').1
      (store (store s name' data').1 name data).1 := by
  intro other
  rw [h.load_store _ _ _ _ (h.writable_store _ _ _ hw), h.load_store _ _ _ _ hw,
    h.load_store _ _ _ _ (h.writable_store _ _ _ hw), h.load_store _ _ _ _ hw]
  by_cases ho : other = name
  · simp [ho, hn]
  · simp [ho]

end SaveStore

namespace MemoryStore

theorem store_eq {s : MemoryStore} (h : s.isReadOnly = false) (name : String) (data : Bytes) :
    s.store name data = ({ s with saves := s.saves.insert name data }, .ok ()) := by
  rw [store, h, if_neg Bool.false_ne_true]

theorem actsAsMap : SaveStore.ActsAsMap (fun s : MemoryStore => s.isReadOnly = false) := by
  constructor
  · intro s name data h
    change (s.store name data).1.isReadOnly = false
    rw [store_eq h]
    exact h
  · intro s name data other h
    change (s.store name data).1.saves[other]? = if other = name then some data else s.saves[other]?
    rw [store_eq h, Std.ExtTreeMap.getElem?_insert]
    simp only [Std.LawfulEqCmp.compare_eq_iff_eq, eq_comm (b := other)]

theorem isMap (s : MemoryStore) :
    SaveStore.IsMap (fun s : MemoryStore => s.isReadOnly = false) s := by
  cases hr : s.isReadOnly with
  | false => exact .inl hr
  | true =>
    right
    intro name data
    change (s.store name data).1 = s
    rw [store, hr, if_pos rfl]

theorem extensional : SaveStore.Extensional (fun s : MemoryStore => s.isReadOnly = false) := by
  rintro ⟨saves, isReadOnly⟩ ⟨saves', isReadOnly'⟩ hs ht h
  have hsaves : saves = saves' := Std.ExtTreeMap.ext_getElem? h
  cases hs
  cases ht
  rw [hsaves]

end MemoryStore

end Diskette
