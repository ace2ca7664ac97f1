import Mathlib.Data.List.Count
import Mathlib.Data.List.Nodup
import Mathlib.Data.List.Pairwise
import Mathlib.Data.List.Perm.Basic
import Mathlib.Data.List.Perm.Lattice
import Mathlib.Logic.Function.Basic
import Mathlib.Tactic.Common

/-! Two indexes of the same items. Every item stands in one group, and a track lists the
items of all groups that carry its key. -/

namespace Imflib

universe u v w x

@[ext] structure CrossIndex (γ : Type u) (τ : Type v) (α : Type w) (κ : Type x) where
  groups : List γ
  groupItems : γ → List α
  tracks : List τ
  trackItems : τ → List α
  trackKey : τ → κ
  itemKey : α → κ

namespace CrossIndex

variable {γ : Type u} {τ : Type v} {α : Type w} {κ : Type x}

def items (index : CrossIndex γ τ α κ) : List α := index.groups.flatMap index.groupItems

/-- The two indexes agree. -/
structure Consistent (index : CrossIndex γ τ α κ) : Prop where
  groups_nodup : index.groups.Nodup
  items_nodup : index.items.Nodup
  keys_nodup : (index.tracks.map index.trackKey).Nodup
  listed : ∀ track ∈ index.tracks, ∀ item, item ∈ index.trackItems track ↔
    item ∈ index.items ∧ index.itemKey item = index.trackKey track
  listed_nodup : ∀ track ∈ index.tracks, (index.trackItems track).Nodup
  owned : ∀ item ∈ index.items, index.itemKey item ∈ index.tracks.map index.trackKey

structure Filled (index : CrossIndex γ τ α κ) : Prop where
  groups : ∀ group ∈ index.groups, index.groupItems group ≠ []
  tracks : ∀ track ∈ index.tracks, index.trackItems track ≠ []

def OnePerTrack (index : CrossIndex γ τ α κ) : Prop :=
  ∀ group ∈ index.groups, ((index.groupItems group).map index.itemKey).Nodup

variable {index : CrossIndex γ τ α κ}

theorem mem_items {item : α} :
    item ∈ index.items ↔ ∃ group ∈ index.groups, item ∈ index.groupItems group :=
  List.mem_flatMap

theorem mem_items_of_mem {group : γ} {item : α} (member : group ∈ index.groups)
    (inside : item ∈ index.groupItems group) : item ∈ index.items :=
  mem_items.mpr ⟨group, member, inside⟩

namespace Consistent

theorem tracks_nodup (consistent : index.Consistent) : index.tracks.Nodup :=
  consistent.keys_nodup.of_map

theorem group_unique (consistent : index.Consistent) {first second : γ} {item : α}
    (firstMember : first ∈ index.groups) (secondMember : second ∈ index.groups)
    (inFirst : item ∈ index.groupItems first) (inSecond : item ∈ index.groupItems second) :
    first = second := by
  by_contra different
  have apart := (List.nodup_flatMap.mp consistent.items_nodup).2
  have symmetric : Std.Symm (Function.onFun List.Disjoint index.groupItems) :=
    ⟨fun _ _ disjoint => disjoint.symm⟩
  exact apart.forall firstMember secondMember different inFirst inSecond

theorem group_nodup (consistent : index.Consistent) {group : γ} (member : group ∈ index.groups) :
    (index.groupItems group).Nodup :=
  (List.nodup_flatMap.mp consistent.items_nodup).1 group member

theorem track_unique (consistent : index.Consistent) {first second : τ}
    (firstMember : first ∈ index.tracks) (secondMember : second ∈ index.tracks)
    (same : index.trackKey first = index.trackKey second) : first = second :=
  List.inj_on_of_nodup_map consistent.keys_nodup firstMember secondMember same

theorem countP_tracks [DecidableEq κ] (consistent : index.Consistent) {item : α}
    (present : item ∈ index.items) :
    index.tracks.countP (fun track => index.trackKey track = index.itemKey item) = 1 := by
  have counted : index.tracks.countP (fun track => index.trackKey track = index.itemKey item) =
      (index.tracks.map index.trackKey).count (index.itemKey item) := by
    rw [List.count, List.countP_map]
    refine List.countP_congr fun track _ => ?_
    simp
  rw [counted]
  exact List.count_eq_one_of_mem consistent.keys_nodup (consistent.owned item present)

theorem count_trackItems [DecidableEq α] (consistent : index.Consistent) {item : α} {track : τ}
    (present : item ∈ index.items) (member : track ∈ index.tracks)
    (carried : index.itemKey item = index.trackKey track) :
    (index.trackItems track).count item = 1 :=
  List.count_eq_one_of_mem (consistent.listed_nodup track member)
    ((consistent.listed track member item).mpr ⟨present, carried⟩)

theorem countP_groups [DecidableEq α] (consistent : index.Consistent) {item : α}
    (present : item ∈ index.items) :
    index.groups.countP (fun group => item ∈ index.groupItems group) = 1 := by
  classical
  obtain ⟨group, member, inside⟩ := mem_items.mp present
  have only : ∀ other ∈ index.groups,
      decide (item ∈ index.groupItems other) = true ↔ (other == group) = true := by
    intro other otherMember
    rw [decide_eq_true_iff, beq_iff_eq]
    constructor
    · intro inOther
      exact consistent.group_unique otherMember member inOther inside
    · intro same
      rwa [same]
  rw [List.countP_congr only]
  exact List.count_eq_one_of_mem consistent.groups_nodup member

end Consistent

section Changes

variable [DecidableEq γ]

theorem items_perm (index : CrossIndex γ τ α κ) {group : γ} (member : group ∈ index.groups) :
    index.items.Perm
      (index.groupItems group ++ (index.groups.erase group).flatMap index.groupItems) := by
  have first := List.Perm.flatMap_right index.groupItems (List.perm_cons_erase member)
  simpa [items] using first

theorem update_of_mem {β : Type*} {groups : List γ} {fresh : γ} (absent : fresh ∉ groups)
    (f : γ → β) (value : β) {group : γ} (member : group ∈ groups) :
    Function.update f fresh value group = f group := by
  have different : group ≠ fresh := fun same => absent (same ▸ member)
  rw [Function.update_of_ne different]

theorem flatMap_update_of_not_mem {groups : List γ} {group : γ} (absent : group ∉ groups)
    (groupItems : γ → List α) (changed : List α) :
    groups.flatMap (Function.update groupItems group changed) = groups.flatMap groupItems := by
  exact List.flatMap_congr fun other member => update_of_mem absent _ _ member

variable [DecidableEq τ] [DecidableEq α]

def addGroup (index : CrossIndex γ τ α κ) (group : γ) (groups : List γ) : CrossIndex γ τ α κ :=
  { index with groups := groups, groupItems := Function.update index.groupItems group [] }

def addTrack (index : CrossIndex γ τ α κ) (track : τ) (key : κ) : CrossIndex γ τ α κ :=
  { index with
    tracks := index.tracks ++ [track]
    trackItems := Function.update index.trackItems track []
    trackKey := Function.update index.trackKey track key }

def link (index : CrossIndex γ τ α κ) (group : γ) (track : τ) (item : α) : CrossIndex γ τ α κ :=
  { index with
    groupItems := Function.update index.groupItems group (index.groupItems group ++ [item])
    trackItems := Function.update index.trackItems track (index.trackItems track ++ [item])
    itemKey := Function.update index.itemKey item (index.trackKey track) }

def unlink (index : CrossIndex γ τ α κ) (group : γ) (track : τ) (item : α) : CrossIndex γ τ α κ :=
  { index with
    groupItems := Function.update index.groupItems group
      ((index.groupItems group).filter (· ≠ item))
    trackItems := Function.update index.trackItems track
      ((index.trackItems track).filter (· ≠ item)) }

def dropEmptyGroup (index : CrossIndex γ τ α κ) (group : γ) : CrossIndex γ τ α κ :=
  { index with
    groups :=
      if (index.groupItems group).isEmpty then index.groups.filter (· ≠ group) else index.groups }

def dropEmptyTrack (index : CrossIndex γ τ α κ) (track : τ) : CrossIndex γ τ α κ :=
  { index with
    tracks :=
      if (index.trackItems track).isEmpty then index.tracks.filter (· ≠ track) else index.tracks }

/-- An item is taken out, and then its group and its track if they are left empty. -/
def remove (index : CrossIndex γ τ α κ) (group : γ) (track : τ) (item : α) : CrossIndex γ τ α κ :=
  ((index.unlink group track item).dropEmptyGroup group).dropEmptyTrack track

omit [DecidableEq τ] [DecidableEq α] in
theorem items_addGroup_perm {group : γ} {groups : List γ} (fresh : group ∉ index.groups)
    (inserted : groups.Perm (group :: index.groups)) :
    (index.addGroup group groups).items.Perm index.items := by
  have moved := inserted.flatMap_right (Function.update index.groupItems group [])
  rw [List.flatMap_cons, Function.update_self, List.nil_append,
    flatMap_update_of_not_mem fresh] at moved
  exact moved

theorem items_link_perm (nodup : index.groups.Nodup) {group : γ} (member : group ∈ index.groups)
    (track : τ) (item : α) : (index.link group track item).items.Perm (item :: index.items) := by
  have others : group ∉ index.groups.erase group := nodup.not_mem_erase
  have after := items_perm (index.link group track item) member
  simp only [link, Function.update_self, flatMap_update_of_not_mem others] at after
  refine after.trans ?_
  have before := (items_perm index member).cons item
  refine List.Perm.trans ?_ before.symm
  rw [List.append_assoc]
  exact List.perm_middle

theorem items_unlink_perm (consistent : index.Consistent) {group : γ}
    (member : group ∈ index.groups) {item : α} (inside : item ∈ index.groupItems group)
    (track : τ) :
    (index.unlink group track item).items.Perm (index.items.filter (· ≠ item)) := by
  have others : group ∉ index.groups.erase group := consistent.groups_nodup.not_mem_erase
  have after := items_perm (index.unlink group track item) member
  simp only [unlink, Function.update_self, flatMap_update_of_not_mem others] at after
  refine after.trans ?_
  have before := (items_perm index member).filter (· ≠ item)
  rw [List.filter_append] at before
  have untouched : ((index.groups.erase group).flatMap index.groupItems).filter (· ≠ item) =
      (index.groups.erase group).flatMap index.groupItems := by
    refine List.filter_eq_self.mpr fun other outside => ?_
    obtain ⟨second, secondMember, inSecond⟩ := List.mem_flatMap.mp outside
    have different : other ≠ item := by
      rintro rfl
      have same := consistent.group_unique member (List.mem_of_mem_erase secondMember) inside
        inSecond
      exact others (same ▸ secondMember)
    simpa using different
  rw [untouched] at before
  exact before.symm

omit [DecidableEq τ] [DecidableEq α] in
theorem mem_dropEmptyGroup {group other : γ} :
    other ∈ (index.dropEmptyGroup group).groups ↔
      other ∈ index.groups ∧ (other = group → index.groupItems group ≠ []) := by
  unfold dropEmptyGroup
  split
  · rename_i empty
    simp [List.isEmpty_iff.mp empty]
  · rename_i nonempty
    have kept : index.groupItems group ≠ [] := fun empty => nonempty (List.isEmpty_iff.mpr empty)
    simp [kept]

omit [DecidableEq γ] [DecidableEq α] in
theorem mem_dropEmptyTrack {track other : τ} :
    other ∈ (index.dropEmptyTrack track).tracks ↔
      other ∈ index.tracks ∧ (other = track → index.trackItems track ≠ []) := by
  unfold dropEmptyTrack
  split
  · rename_i empty
    simp [List.isEmpty_iff.mp empty]
  · rename_i nonempty
    have kept : index.trackItems track ≠ [] := fun empty => nonempty (List.isEmpty_iff.mpr empty)
    simp [kept]

omit [DecidableEq τ] [DecidableEq α] in
theorem dropEmptyGroup_sublist (group : γ) :
    (index.dropEmptyGroup group).groups.Sublist index.groups := by
  unfold dropEmptyGroup
  split
  · exact List.filter_sublist
  · exact List.Sublist.refl _

omit [DecidableEq γ] [DecidableEq α] in
theorem dropEmptyTrack_sublist (track : τ) :
    (index.dropEmptyTrack track).tracks.Sublist index.tracks := by
  unfold dropEmptyTrack
  split
  · exact List.filter_sublist
  · exact List.Sublist.refl _

omit [DecidableEq τ] [DecidableEq α] in
theorem items_dropEmptyGroup (index : CrossIndex γ τ α κ) (group : γ) :
    (index.dropEmptyGroup group).items = index.items := by
  unfold dropEmptyGroup items
  dsimp only
  split
  · rename_i empty
    have none : index.groupItems group = [] := List.isEmpty_iff.mp empty
    induction index.groups with
    | nil => rfl
    | cons head tail ih =>
        by_cases same : head = group
        · simpa [same, none] using ih
        · simpa [same] using ih
  · rfl

theorem items_remove_perm (consistent : index.Consistent) {group : γ}
    (member : group ∈ index.groups) {item : α} (inside : item ∈ index.groupItems group)
    (track : τ) :
    (index.remove group track item).items.Perm (index.items.filter (· ≠ item)) := by
  have settled : (index.remove group track item).items = (index.unlink group track item).items :=
    items_dropEmptyGroup (index.unlink group track item) group
  rw [settled]
  exact items_unlink_perm consistent member inside track

namespace Consistent

omit [DecidableEq τ] [DecidableEq α] in
theorem addGroup (consistent : index.Consistent) {group : γ} {groups : List γ}
    (fresh : group ∉ index.groups) (inserted : groups.Perm (group :: index.groups)) :
    (index.addGroup group groups).Consistent := by
  have same := items_addGroup_perm fresh inserted
  exact
    { groups_nodup := inserted.nodup_iff.mpr (List.nodup_cons.mpr ⟨fresh, consistent.groups_nodup⟩)
      items_nodup := same.nodup_iff.mpr consistent.items_nodup
      keys_nodup := consistent.keys_nodup
      listed := by
        intro track member item
        rw [same.mem_iff]
        exact consistent.listed track member item
      listed_nodup := consistent.listed_nodup
      owned := fun item present => consistent.owned item (same.mem_iff.mp present) }

omit [DecidableEq γ] [DecidableEq α] in
theorem addTrack (consistent : index.Consistent) {track : τ} {key : κ}
    (fresh : track ∉ index.tracks) (newKey : key ∉ index.tracks.map index.trackKey) :
    (index.addTrack track key).Consistent := by
  have keptKey : ∀ other ∈ index.tracks,
      Function.update index.trackKey track key other = index.trackKey other :=
    fun other member => update_of_mem fresh _ _ member
  have keptItems : ∀ other ∈ index.tracks,
      Function.update index.trackItems track [] other = index.trackItems other :=
    fun other member => update_of_mem fresh _ _ member
  have keys : (index.addTrack track key).tracks.map (index.addTrack track key).trackKey =
      index.tracks.map index.trackKey ++ [key] := by
    simp only [CrossIndex.addTrack, List.map_append, List.map_singleton, Function.update_self]
    rw [List.map_congr_left keptKey]
  refine
    { groups_nodup := consistent.groups_nodup
      items_nodup := consistent.items_nodup
      keys_nodup := ?_
      listed := ?_
      listed_nodup := ?_
      owned := ?_ }
  · rw [keys]
    exact (List.perm_append_singleton _ _).nodup_iff.mpr
      (List.nodup_cons.mpr ⟨newKey, consistent.keys_nodup⟩)
  · intro other member item
    rcases List.mem_append.mp member with old | new
    · simp only [CrossIndex.addTrack, keptKey other old, keptItems other old]
      exact consistent.listed other old item
    · rw [List.mem_singleton.mp new]
      simp only [CrossIndex.addTrack, Function.update_self, List.not_mem_nil, false_iff, not_and]
      intro present same
      exact newKey (same ▸ consistent.owned item present)
  · intro other member
    rcases List.mem_append.mp member with old | new
    · simpa only [CrossIndex.addTrack, keptItems other old] using
        consistent.listed_nodup other old
    · rw [List.mem_singleton.mp new]
      simp [CrossIndex.addTrack]
  · intro item present
    rw [keys]
    exact List.mem_append_left _ (consistent.owned item present)

theorem link (consistent : index.Consistent) {group : γ} {track : τ} {item : α}
    (groupMember : group ∈ index.groups) (trackMember : track ∈ index.tracks)
    (fresh : item ∉ index.items) : (index.link group track item).Consistent := by
  have items := items_link_perm consistent.groups_nodup groupMember track item
  have keptKey : ∀ other ∈ index.items,
      (index.link group track item).itemKey other = index.itemKey other :=
    fun other member => update_of_mem fresh _ _ member
  have ownKey : (index.link group track item).itemKey item = index.trackKey track :=
    Function.update_self _ _ _
  refine
    { groups_nodup := consistent.groups_nodup
      items_nodup := items.nodup_iff.mpr (List.nodup_cons.mpr ⟨fresh, consistent.items_nodup⟩)
      keys_nodup := consistent.keys_nodup
      listed := ?_
      listed_nodup := ?_
      owned := ?_ }
  · intro other member candidate
    have before := consistent.listed other member candidate
    rw [items.mem_iff, List.mem_cons]
    by_cases new : candidate = item
    · subst new
      have unlisted : candidate ∉ index.trackItems other := fun inside => fresh (before.mp inside).1
      rw [ownKey]
      by_cases same : other = track
      · subst same
        simp [CrossIndex.link]
      · have keys : index.trackKey track ≠ index.trackKey other :=
          fun equal => same (consistent.track_unique member trackMember equal.symm)
        simp [CrossIndex.link, same, unlisted, keys]
    · have kept : (index.link group track item).itemKey candidate = index.itemKey candidate :=
        Function.update_of_ne new _ _
      rw [kept]
      by_cases same : other = track
      · subst same
        simpa [CrossIndex.link, new] using before
      · simpa [CrossIndex.link, same, new] using before
  · intro other member
    by_cases same : other = track
    · subst same
      have unlisted : item ∉ index.trackItems other :=
        fun inside => fresh ((consistent.listed other member item).mp inside).1
      simp only [CrossIndex.link, Function.update_self]
      exact (List.perm_append_singleton _ _).nodup_iff.mpr
        (List.nodup_cons.mpr ⟨unlisted, consistent.listed_nodup other member⟩)
    · simpa [CrossIndex.link, same] using consistent.listed_nodup other member
  · intro other member
    rcases List.mem_cons.mp (items.mem_iff.mp member) with rfl | old
    · rw [ownKey]
      exact List.mem_map_of_mem trackMember
    · rw [keptKey other old]
      exact consistent.owned other old

theorem unlink (consistent : index.Consistent) {group : γ} {track : τ} {item : α}
    (groupMember : group ∈ index.groups) (inside : item ∈ index.groupItems group)
    (trackMember : track ∈ index.tracks)
    (carried : index.itemKey item = index.trackKey track) :
    (index.unlink group track item).Consistent := by
  have items := items_unlink_perm consistent groupMember inside track
  have present (other : α) : other ∈ (index.unlink group track item).items ↔
      other ∈ index.items ∧ other ≠ item := by
    rw [items.mem_iff, List.mem_filter, decide_eq_true_iff]
  refine
    { groups_nodup := consistent.groups_nodup
      items_nodup := items.nodup_iff.mpr (consistent.items_nodup.filter _)
      keys_nodup := consistent.keys_nodup
      listed := ?_
      listed_nodup := ?_
      owned := fun other member => consistent.owned other ((present other).mp member).1 }
  · intro other member candidate
    have before := consistent.listed other member candidate
    rw [present]
    by_cases same : other = track
    · subst same
      simp only [CrossIndex.unlink, Function.update_self, List.mem_filter, decide_eq_true_iff,
        before]
      tauto
    · have elsewhere : index.itemKey item ≠ index.trackKey other :=
        fun equal => same (consistent.track_unique member trackMember (equal.symm.trans carried))
      have unlisted : candidate = item → ¬ index.itemKey candidate = index.trackKey other := by
        rintro rfl
        exact elsewhere
      simp only [CrossIndex.unlink, Function.update_of_ne same, before]
      tauto
  · intro other member
    by_cases same : other = track
    · subst same
      simpa [CrossIndex.unlink] using (consistent.listed_nodup other member).filter _
    · simpa [CrossIndex.unlink, same] using consistent.listed_nodup other member

omit [DecidableEq τ] [DecidableEq α] in
theorem dropEmptyGroup (consistent : index.Consistent) (group : γ) :
    (index.dropEmptyGroup group).Consistent :=
  { groups_nodup := (dropEmptyGroup_sublist group).nodup consistent.groups_nodup
    items_nodup := (items_dropEmptyGroup index group).symm ▸ consistent.items_nodup
    keys_nodup := consistent.keys_nodup
    listed := by
      intro track member item
      rw [items_dropEmptyGroup]
      exact consistent.listed track member item
    listed_nodup := consistent.listed_nodup
    owned := fun item present => consistent.owned item (items_dropEmptyGroup index group ▸ present) }

omit [DecidableEq γ] [DecidableEq α] in
theorem dropEmptyTrack (consistent : index.Consistent) (track : τ) :
    (index.dropEmptyTrack track).Consistent := by
  refine
    { groups_nodup := consistent.groups_nodup
      items_nodup := consistent.items_nodup
      keys_nodup := ((dropEmptyTrack_sublist track).map _).nodup consistent.keys_nodup
      listed := fun other member => consistent.listed other (mem_dropEmptyTrack.mp member).1
      listed_nodup := fun other member =>
        consistent.listed_nodup other (mem_dropEmptyTrack.mp member).1
      owned := ?_ }
  intro item present
  obtain ⟨other, member, carried⟩ := List.mem_map.mp (consistent.owned item present)
  have inside := (consistent.listed other member item).mpr ⟨present, carried.symm⟩
  refine List.mem_map.mpr ⟨other, mem_dropEmptyTrack.mpr ⟨member, ?_⟩, carried⟩
  rintro rfl
  exact List.ne_nil_of_mem inside

theorem remove (consistent : index.Consistent) {group : γ} {track : τ} {item : α}
    (groupMember : group ∈ index.groups) (inside : item ∈ index.groupItems group)
    (trackMember : track ∈ index.tracks) (carried : index.itemKey item = index.trackKey track) :
    (index.remove group track item).Consistent :=
  ((consistent.unlink groupMember inside trackMember carried).dropEmptyGroup group).dropEmptyTrack
    track

end Consistent

theorem Filled.link {group : γ} {track : τ} (item : α)
    (groups : ∀ other ∈ index.groups, other ≠ group → index.groupItems other ≠ [])
    (tracks : ∀ other ∈ index.tracks, other ≠ track → index.trackItems other ≠ []) :
    (index.link group track item).Filled := by
  constructor
  · intro other member
    by_cases same : other = group
    · simp [CrossIndex.link, same]
    · simpa [CrossIndex.link, same] using groups other member same
  · intro other member
    by_cases same : other = track
    · simp [CrossIndex.link, same]
    · simpa [CrossIndex.link, same] using tracks other member same

omit [DecidableEq τ] [DecidableEq α] in
theorem OnePerTrack.addGroup (onePerTrack : index.OnePerTrack) {group : γ} {groups : List γ}
    (inserted : groups.Perm (group :: index.groups)) :
    (index.addGroup group groups).OnePerTrack := by
  intro other member
  by_cases same : other = group
  · simp [CrossIndex.addGroup, same]
  · have old : other ∈ index.groups := by
      have split := List.mem_cons.mp (inserted.mem_iff.mp member)
      exact split.resolve_left same
    simpa [CrossIndex.addGroup, same] using onePerTrack other old

theorem OnePerTrack.link (onePerTrack : index.OnePerTrack) {group : γ} {item : α} (track : τ)
    (groupMember : group ∈ index.groups) (fresh : item ∉ index.items)
    (apart : index.trackKey track ∉ (index.groupItems group).map index.itemKey) :
    (index.link group track item).OnePerTrack := by
  have keptKeys (other : γ) (member : other ∈ index.groups) :
      (index.groupItems other).map (index.link group track item).itemKey =
        (index.groupItems other).map index.itemKey := by
    refine List.map_congr_left fun candidate inside => update_of_mem fresh _ _ ?_
    exact mem_items_of_mem member inside
  intro other member
  by_cases same : other = group
  · subst same
    have items : (index.link other track item).groupItems other = index.groupItems other ++ [item] :=
      Function.update_self _ _ _
    have ownKey : (index.link other track item).itemKey item = index.trackKey track :=
      Function.update_self _ _ _
    rw [items, List.map_append, keptKeys other member, List.map_singleton, ownKey]
    exact (List.perm_append_singleton _ _).nodup_iff.mpr
      (List.nodup_cons.mpr ⟨apart, onePerTrack other member⟩)
  · have items : (index.link group track item).groupItems other = index.groupItems other :=
      Function.update_of_ne same _ _
    rw [items, keptKeys other member]
    exact onePerTrack other member

theorem OnePerTrack.remove (onePerTrack : index.OnePerTrack) (group : γ) (track : τ) (item : α) :
    (index.remove group track item).OnePerTrack := by
  intro other member
  have old : other ∈ index.groups := (mem_dropEmptyGroup.mp member).1
  change (((index.unlink group track item).groupItems other).map index.itemKey).Nodup
  by_cases same : other = group
  · subst same
    simp only [unlink, Function.update_self]
    exact (List.filter_sublist.map _).nodup (onePerTrack other old)
  · simpa [unlink, same] using onePerTrack other old

/-- Only the group and the track of the item can be left empty, and they are dropped then. -/
theorem Filled.remove (filled : index.Filled) (group : γ) (track : τ) (item : α) :
    (index.remove group track item).Filled := by
  constructor
  · intro other member
    obtain ⟨old, kept⟩ := mem_dropEmptyGroup.mp member
    change (index.unlink group track item).groupItems other ≠ []
    by_cases same : other = group
    · subst same
      exact kept rfl
    · simpa [unlink, same] using filled.groups other old
  · intro other member
    obtain ⟨old, kept⟩ := mem_dropEmptyTrack.mp member
    change (index.unlink group track item).trackItems other ≠ []
    by_cases same : other = track
    · subst same
      exact kept rfl
    · simpa [unlink, same] using filled.tracks other old

end Changes

end CrossIndex

end Imflib
