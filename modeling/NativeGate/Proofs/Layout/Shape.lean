import NativeGate.Proofs.Layout.Range
import NativeGate.Proofs.Toml.Document

/-!
The shape of layouts in files. A member is a table of leaves, members stand in tables under their
names, and a layout has its size before those tables; so every layout in the range of files is a
table that is read back (`TypeLayout.regular_tree`).
-/

namespace NativeGate.Dict

theorem nodup_names {α : Type} (d : Dict α) : (d.entries.map (·.1)).Nodup := by
  rw [List.nodup_iff_pairwise_ne, List.pairwise_map]
  exact d.ordered.imp fun hlt => String.ne_of_lt hlt

end NativeGate.Dict

namespace NativeGate.Toml
open Data

/-! ### Trees -/

/-- A tree that is null or has a line of its own, if it can be written. -/
def isLine : Tree → Bool
  | .null | .boolean _ | .integer _ | .text _ => true
  | _ => false

theorem leaf_of_isLine {t : Tree} (hline : isLine t) (h : fits t) : t = .null ∨ Leaf t := by
  cases t with
  | null => exact .inl rfl
  | boolean b => exact .inr (.boolean b)
  | integer n =>
    refine .inr (.integer ?_)
    have hsome : (integer? n).isSome := h
    unfold integer? at hsome ⊢
    split
    · rfl
    · rename_i hrange
      rw [if_neg hrange] at hsome
      cases hsome
  | text s => exact .inr (.text s)
  | _ => cases hline

/-- A table of leaves and, behind them, tables. -/
theorem regular_table {n : Nat} (leaves : List (String × Tree)) {branches : List (String × Tree)}
    (hlines : ∀ e ∈ leaves, isLine e.2) (hfits : ∀ e ∈ leaves, fits e.2)
    (hbranches : ∀ e ∈ branches, Regular n e.2)
    (hdistinct : ((leaves ++ branches).map (·.1)).Nodup) :
    Regular (n + 1) (.table (leaves ++ branches)) :=
  .table (fun e he => leaf_of_isLine (hlines e he) (hfits e he)) hbranches hdistinct

/-- A table without tables in it. -/
theorem regular_flat {es : List (String × Tree)} (n : Nat) (hlines : ∀ e ∈ es, isLine e.2)
    (h : fits (.table es)) (hdistinct : (es.map (·.1)).Nodup) : Regular (n + 1) (.table es) := by
  have hregular := regular_table es hlines ((fits_table_iff es).1 h) (List.forall_mem_nil _)
    (n := n) (by rwa [List.append_nil])
  rwa [List.append_nil] at hregular

theorem regular_writeDict {α : Type} {write : α → Tree} {d : Dict α} {n : Nat}
    (h : ∀ e ∈ d.entries, Regular n (write e.2)) : Regular (n + 1) (writeDict write d) := by
  refine regular_table [] (List.forall_mem_nil _) (List.forall_mem_nil _) ?_ ?_
  · intro e he
    obtain ⟨entry, hentry, rfl⟩ := List.mem_map.1 he
    exact h entry hentry
  · rw [List.nil_append, List.map_map]
    exact d.nodup_names

end NativeGate.Toml

namespace NativeGate.Layout
open Data Toml

/-! ### Members and layouts -/

theorem isLine_converterEntry (converter : Option String) :
    ∀ e ∈ converterEntry converter, isLine e.2 := by
  cases converter with
  | none => exact nofun
  | some name => exact List.forall_mem_singleton.2 rfl

theorem isLine_textEntry (name : String) (s : Option String) : isLine (textEntry name s).2 := by
  cases s <;> rfl

theorem isLine_countEntry (name : String) (n : Option UInt64) : isLine (countEntry name n).2 := by
  cases n <;> rfl

theorem Attribute.regular_tree (n : Nat) {a : Attribute} (h : fits a.tree) :
    Regular (n + 1) a.tree := by
  refine regular_flat n ?_ h ?_
  · simp only [List.cons_append, List.nil_append, List.forall_mem_cons]
    exact ⟨rfl, rfl, rfl, isLine_countEntry _ _, rfl, isLine_converterEntry a.converter⟩
  · cases a.converter <;> simp [countEntry, converterEntry]

theorem FunctionSpec.regular_tree (n : Nat) (f : FunctionSpec) : Regular (n + 1) f.tree := by
  refine regular_flat n ?_ f.fits_tree ?_
  · simp only [List.cons_append, List.nil_append, List.forall_mem_cons]
    exact ⟨rfl, isLine_textEntry _ _, isLine_textEntry _ _, isLine_textEntry _ _, rfl, rfl,
      isLine_converterEntry f.converter⟩
  · cases f.converter <;> simp [textEntry, converterEntry]

theorem VirtualSpec.regular_tree (n : Nat) {f : VirtualSpec} (h : fits f.tree) :
    Regular (n + 1) f.tree := by
  refine regular_flat n ?_ h ?_
  · simp only [List.cons_append, List.nil_append, List.forall_mem_cons]
    exact ⟨rfl, rfl, rfl, rfl, isLine_converterEntry f.converter⟩
  · cases f.converter <;> simp [converterEntry]

theorem TypeLayout.regular_tree (n : Nat) {l : TypeLayout} (h : fits l.tree) :
    Regular (n + 3) l.tree := by
  have hfits := (fits_table_iff _).1 h
  simp only [List.forall_mem_cons] at hfits
  obtain ⟨hsize, hattributes, -, hvirtuals, -⟩ := hfits
  refine regular_table [countEntry "size" l.size] ?_ ?_ ?_ ?_
  · exact List.forall_mem_singleton.2 (isLine_countEntry _ _)
  · exact List.forall_mem_singleton.2 hsize
  · simp only [List.forall_mem_cons]
    exact ⟨regular_writeDict fun e he =>
        Attribute.regular_tree n (fits_writeDict.1 hattributes e he),
      regular_writeDict fun e _ => FunctionSpec.regular_tree n e.2,
      regular_writeDict fun e he => VirtualSpec.regular_tree n (fits_writeDict.1 hvirtuals e he),
      nofun⟩
  · simp [countEntry]

end NativeGate.Layout
