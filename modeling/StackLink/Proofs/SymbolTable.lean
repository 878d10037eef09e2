import Mathlib
import StackLink.Host.Symbols

/-!
# The order of a symbol table

A symbol table keeps its symbols sorted by device and then by index, and has at most one
symbol per device and index. This file shows that every operation the host uses keeps the
order, and what the order gives a reader of the table.

* `StackLink.SymbolTable.Sorted.insert`, `.record` and `.clear`: recording symbols and
  forgetting a device keep the table sorted. Recording keeps the symbols it was given and
  those of the table that it did not replace (`StackLink.SymbolTable.mem_record`), and a
  device that is forgotten lists nothing (`StackLink.SymbolTable.list_clear`).
* `StackLink.SymbolTable.Sorted.list_index`: in a sorted table, a device's symbols come in
  strictly increasing index order.
* **What a name resolves to** (`StackLink.SymbolTable.lookup_eq_ok_iff`): in a sorted table, a
  name resolves on a device to exactly the symbol of that device and name with the highest
  index. The table resolves to the last symbol of the name it lists, and in a list of strictly
  increasing indices the last one is the highest.
-/

namespace StackLink

namespace SymbolTable

/-! ### The order of symbols -/

section Before

variable {a b c : Symbol}

theorem before_iff : before a b = true ↔
    a.device < b.device ∨ (a.device = b.device ∧ a.index < b.index) := by
  simp [before]

theorem before_trans (hab : before a b = true) (hbc : before b c = true) : before a c = true := by
  rw [before_iff] at *
  rcases hab with h₁ | ⟨h₁, h₁'⟩ <;> rcases hbc with h₂ | ⟨h₂, h₂'⟩
  · exact .inl (lt_trans h₁ h₂)
  · exact .inl (h₂ ▸ h₁)
  · exact .inl (h₁ ▸ h₂)
  · exact .inr ⟨h₁.trans h₂, UInt16.lt_trans h₁' h₂'⟩

/-- Two symbols of different devices or indices are ordered one way or the other. -/
theorem before_total (h : ¬ (a.device = b.device ∧ a.index = b.index)) :
    before a b = true ∨ before b a = true := by
  simp only [before_iff]
  rcases lt_trichotomy a.device b.device with hd | hd | hd
  · exact .inl (.inl hd)
  · rcases Nat.lt_trichotomy a.index.toNat b.index.toNat with hi | hi | hi
    · exact .inl (.inr ⟨hd, UInt16.lt_iff_toNat_lt.mpr hi⟩)
    · exact absurd ⟨hd, UInt16.toNat_inj.mp hi⟩ h
    · exact .inr (.inr ⟨hd.symm, UInt16.lt_iff_toNat_lt.mpr hi⟩)
  · exact .inr (.inl hd)

end Before

/-! ### Keeping the table sorted -/

/-- The symbols of the table in order, by device and then by index, each device and index
at most once. -/
def Sorted (t : SymbolTable) : Prop := t.symbols.Pairwise fun a b => before a b = true

variable {t : SymbolTable} {x s : Symbol}

theorem mem_list {dev : String} : x ∈ t.list dev ↔ x ∈ t.symbols ∧ x.device = dev := by
  simp [list]

/-- A table with a symbol inserted holds that symbol and the symbols it held at other devices
or indices. -/
theorem mem_insert : x ∈ (t.insert s).symbols ↔
    x = s ∨ (x ∈ t.symbols ∧ ¬ (x.device = s.device ∧ x.index = s.index)) := by
  simp only [insert, List.append_assoc, List.mem_append, List.mem_filter, List.mem_singleton,
    Bool.not_eq_true', Bool.and_eq_false_iff, beq_eq_false_iff_ne, ne_eq]
  constructor
  · rintro (⟨⟨hx, hne⟩, -⟩ | rfl | ⟨⟨hx, hne⟩, -⟩)
    · exact .inr ⟨hx, by tauto⟩
    · exact .inl rfl
    · exact .inr ⟨hx, by tauto⟩
  · rintro (rfl | ⟨hx, hne⟩)
    · exact .inr (.inl rfl)
    · have hne' : ¬ x.device = s.device ∨ ¬ x.index = s.index := by tauto
      cases hb : before x s
      · exact .inr (.inr ⟨⟨hx, hne'⟩, rfl⟩)
      · exact .inl ⟨⟨hx, hne'⟩, rfl⟩

theorem Sorted.insert (h : t.Sorted) (s : Symbol) : (t.insert s).Sorted := by
  unfold Sorted SymbolTable.insert
  dsimp only
  have hrest := h.filter fun o => !(o.device == s.device && o.index == s.index)
  -- every symbol kept is on one side of the new one
  have hafter : ∀ o ∈ t.symbols.filter fun o => !(o.device == s.device && o.index == s.index),
      before o s = false → before s o = true := by
    intro o ho hno
    have hne : ¬ (o.device = s.device ∧ o.index = s.index) := by
      have := (List.mem_filter.mp ho).2
      simp only [Bool.not_eq_true', Bool.and_eq_false_iff, beq_eq_false_iff_ne, ne_eq] at this
      tauto
    rcases before_total hne with hos | hso
    · rw [hos] at hno; cases hno
    · exact hso
  rw [List.pairwise_append, List.pairwise_append]
  refine ⟨⟨hrest.filter _, List.pairwise_singleton _ _, ?_⟩, hrest.filter _, ?_⟩
  · intro o ho s' hs'
    rw [List.mem_singleton.mp hs']
    exact (List.mem_filter.mp ho).2
  · intro o ho o' ho'
    have hafter' := hafter o' (List.mem_filter.mp ho').1 (by simpa using (List.mem_filter.mp ho').2)
    rcases List.mem_append.mp ho with ho | ho
    · exact before_trans (List.mem_filter.mp ho).2 hafter'
    · rw [List.mem_singleton.mp ho]
      exact hafter'

theorem Sorted.record (h : t.Sorted) (syms : List Symbol) : (t.record syms).Sorted := by
  induction syms generalizing t with
  | nil => exact h
  | cons s ss ih => exact ih (h.insert s)

/-- Every symbol of a table after recording was recorded or was in the table before. -/
theorem mem_record {syms : List Symbol} (hx : x ∈ (t.record syms).symbols) :
    x ∈ syms ∨ x ∈ t.symbols := by
  induction syms generalizing t with
  | nil => exact .inr hx
  | cons s ss ih =>
    rcases ih hx with hx | hx
    · exact .inl (List.mem_cons_of_mem s hx)
    · rcases mem_insert.mp hx with rfl | ⟨hx, -⟩
      · exact .inl List.mem_cons_self
      · exact .inr hx

theorem Sorted.clear (h : t.Sorted) (dev : String) : (t.clear dev).Sorted := h.filter _

@[simp]
theorem list_clear (t : SymbolTable) (dev : String) : (t.clear dev).list dev = [] := by
  simp [clear, list, List.filter_filter]

/-! ### Reading a sorted table -/

/-- In a sorted table, a device's symbols come in increasing index order. -/
theorem Sorted.list_index (h : t.Sorted) (dev : String) :
    (t.list dev).Pairwise fun a b => a.index < b.index := by
  apply (h.filter _).imp_of_mem
  intro a b ha hb hab
  have had := (mem_list.mp ha).2
  have hbd := (mem_list.mp hb).2
  rcases before_iff.mp hab with hd | ⟨-, hi⟩
  · rw [had, hbd] at hd
    exact absurd hd (lt_irrefl _)
  · exact hi

/-- In a list of strictly increasing indices, the last symbol is the one with the highest
index. -/
theorem getLast?_eq_some_iff_of_increasing {L : List Symbol}
    (hL : L.Pairwise fun a b => a.index < b.index) :
    L.getLast? = some x ↔ x ∈ L ∧ ∀ y ∈ L, y.index ≤ x.index := by
  constructor
  · intro h
    obtain ⟨ys, rfl⟩ := List.getLast?_eq_some_iff.mp h
    have hlt := (List.pairwise_append.mp hL).2.2
    refine ⟨List.mem_append_right _ List.mem_cons_self, fun y hy => ?_⟩
    rcases List.mem_append.mp hy with hy | hy
    · exact UInt16.le_of_lt (hlt y hy x List.mem_cons_self)
    · rw [List.mem_singleton.mp hy]
      exact UInt16.le_refl _
  · rintro ⟨hx, hmax⟩
    rcases List.eq_nil_or_concat L with rfl | ⟨ys, z, rfl⟩
    · cases hx
    rw [List.concat_eq_append] at hL hx hmax ⊢
    -- the last symbol has the highest index, and only one symbol has it
    rcases List.mem_append.mp hx with hx | hz
    · have hlt := (List.pairwise_append.mp hL).2.2 x hx z List.mem_cons_self
      have hle := hmax z (List.mem_append_right _ List.mem_cons_self)
      rw [UInt16.lt_iff_toNat_lt] at hlt
      rw [UInt16.le_iff_toNat_le] at hle
      omega
    · rw [List.mem_singleton.mp hz]
      simp

/-- **What a name resolves to.** In a sorted table, a name resolves on a device to the
symbol of that device and name with the highest index, and to nothing else. -/
theorem lookup_eq_ok_iff (h : t.Sorted) (dev : String) (name : List UInt8) (sym : Symbol) :
    t.lookup dev name = .ok sym ↔
      sym ∈ t.list dev ∧ sym.name = name ∧
        ∀ o ∈ t.list dev, o.name = name → o.index ≤ sym.index := by
  have hL := ((h.list_index dev).filter fun o => o.name == name)
  have hlast : t.lookup dev name = .ok sym ↔
      ((t.list dev).filter fun o => o.name == name).getLast? = some sym := by
    cases hg : ((t.list dev).filter fun o => o.name == name).getLast? <;> simp [lookup, hg]
  rw [hlast, getLast?_eq_some_iff_of_increasing hL]
  simp only [List.mem_filter, beq_iff_eq, and_imp]
  constructor
  · rintro ⟨⟨hmem, hname⟩, hmax⟩
    exact ⟨hmem, hname, fun o ho hon => hmax o ho hon⟩
  · rintro ⟨hmem, hname, hmax⟩
    exact ⟨⟨hmem, hname⟩, fun o ho hon => hmax o ho hon⟩

end SymbolTable

end StackLink
