import Rowmap.Migration
import Rowmap.Proofs.Value.Pairs

/-!
# The migrations of a directory

Which files of a directory are migrations, in which order they are applied, and which of them are
still to be applied once the names of others are known.
-/

namespace Rowmap.Migration

variable {d : Directory} {all : List Script} {file name : String} {entry : DirectoryEntry}

/-- The migrations of a directory: its files with the extension, and a name before it, in the order
of their full names. -/
structure IsMigrationsOf (d : Directory) (all : List Script) : Prop where
  sorted : all.Pairwise fun a b ↦ a.1 ++ ".sql" < b.1 ++ ".sql"
  mem_iff : ∀ name entry, (name, entry) ∈ all ↔ name ≠ "" ∧ (name ++ ".sql", entry) ∈ d

theorem IsMigrationsOf.nodup (h : IsMigrationsOf d all) : (all.map (·.1)).Nodup := by
  refine List.pairwise_map.mpr (h.sorted.imp fun {a b} hlt hname ↦ ?_)
  rw [hname] at hlt
  exact String.lt_irrefl _ hlt

theorem stem?_eq_some_iff : stem? file = some name ↔ name ≠ "" ∧ file = name ++ ".sql" := by
  have hsplit (size : Nat) (hsize : size = file.toList.length - extension.length) :
      file.toList.drop size = extension ∧ 0 < size ∧ String.ofList (file.toList.take size) = name ↔
        name ≠ "" ∧ file = name ++ ".sql" := by
    constructor
    · rintro ⟨hdrop, hpos, rfl⟩
      refine ⟨fun hempty ↦ ?_, ?_⟩
      · have htake : file.toList.take size = [] := by
          rw [← String.toList_ofList (l := file.toList.take size), hempty]
          rfl
        rw [List.take_eq_nil_iff] at htake
        rcases htake with hzero | hnil
        · exact Nat.ne_of_gt hpos hzero
        · rw [hnil] at hdrop
          exact absurd hdrop (by simp [extension])
      · rw [String.ext_iff, String.toList_append, String.toList_ofList]
        exact (hdrop ▸ List.take_append_drop size file.toList).symm
    · rintro ⟨hname, rfl⟩
      have hlength : size = name.toList.length := by
        rw [hsize, String.toList_append, List.length_append]
        exact Nat.add_sub_cancel _ extension.length
      have hlist : (name ++ ".sql").toList = name.toList ++ extension := String.toList_append
      refine ⟨?_, ?_, ?_⟩
      · rw [hlist, hlength, List.drop_left]
      · rw [hlength, List.length_pos_iff]
        exact fun hnil ↦ hname (String.toList_inj.mp hnil)
      · rw [hlist, hlength, List.take_left, String.ofList_toList]
  rw [← hsplit _ rfl, stem?]
  simp [and_assoc]

/-- **Migrations in order.** -/
theorem isMigrationsOf_scripts (hd : (d.map (·.1)).Nodup) : IsMigrationsOf d (scripts d) where
  sorted := by
    have hsorted : (d.mergeSort fun a b ↦ !(b.1 < a.1)).Pairwise fun a b ↦ a.1 < b.1 := by
      have hle : (d.mergeSort fun a b ↦ !(b.1 < a.1)).Pairwise fun a b ↦ (!(b.1 < a.1)) = true := by
        refine List.pairwise_mergeSort (fun a b c hab hbc ↦ ?_) (fun a b ↦ ?_) d
        · simp only [Bool.not_eq_true', decide_eq_false_iff_not, String.not_lt] at hab hbc ⊢
          exact String.le_trans hab hbc
        · simp only [Bool.or_eq_true, Bool.not_eq_true', decide_eq_false_iff_not, String.not_lt]
          exact String.le_total a.1 b.1
      have hne : (d.mergeSort fun a b ↦ !(b.1 < a.1)).Pairwise fun a b ↦ a.1 ≠ b.1 :=
        List.pairwise_map.mp (((List.mergeSort_perm d _).map _).nodup_iff.mpr hd)
      refine hle.imp₂ (fun a b hle hne ↦ ?_) hne
      rw [Bool.not_eq_true', decide_eq_false_iff_not, String.not_lt] at hle
      exact String.not_le.mp fun hge ↦ hne (String.le_antisymm hle hge)
    refine hsorted.filterMap _ fun a b hlt s hs t ht ↦ ?_
    obtain ⟨name, hname, rfl⟩ := Option.map_eq_some_iff.mp hs
    obtain ⟨other, hother, rfl⟩ := Option.map_eq_some_iff.mp ht
    rw [(stem?_eq_some_iff.mp hname).2, (stem?_eq_some_iff.mp hother).2] at hlt
    exact hlt
  mem_iff name entry := by
    rw [scripts, List.mem_filterMap]
    constructor
    · rintro ⟨⟨file, e⟩, hmem, he⟩
      obtain ⟨stem, hstem, hpair⟩ := Option.map_eq_some_iff.mp he
      obtain ⟨rfl, rfl⟩ := Prod.mk.inj hpair
      obtain ⟨hne, rfl⟩ := stem?_eq_some_iff.mp hstem
      exact ⟨hne, (List.mergeSort_perm d _).mem_iff.mp hmem⟩
    · rintro ⟨hne, hmem⟩
      refine ⟨(name ++ ".sql", entry), (List.mergeSort_perm d _).mem_iff.mpr hmem, ?_⟩
      exact Option.map_eq_some_iff.mpr ⟨name, stem?_eq_some_iff.mpr ⟨hne, rfl⟩, rfl⟩

/-- The migrations whose names are not among those recorded, with what is read of each. -/
def pending (recorded : List String) (all : List Script) : List Script :=
  all.filter fun script ↦ !recorded.contains script.1

theorem mem_pending {recorded : List String} {script : Script} :
    script ∈ pending recorded all ↔ script ∈ all ∧ script.1 ∉ recorded := by
  simp [pending]

/-- Names are found among those that a database lists, in whatever order that is. -/
theorem filter_isPending {names recorded : List String} (h : names.Perm recorded)
    (all : List Script) : all.filter (isPending (names.map .text)) = pending recorded all := by
  refine List.filter_congr fun script _ ↦ ?_
  have hmatches (name : String) : Value.matchesElement (.text name) (.text script.1) = true ↔
      name = script.1 := Value.matchesElement_iff rfl rfl
  rw [isPending, Bool.eq_iff_iff]
  simp only [List.any_map, Bool.not_eq_true', List.any_eq_false, Function.comp_apply, hmatches,
    h.mem_iff, List.contains_eq_mem, decide_eq_false_iff_not]
  exact List.forall_mem_ne'

end Rowmap.Migration
