import Imflib.Base.CrossIndex
import Mathlib.Data.List.Find

/-! The order of the tracks of an index and of their items, compared with the order in which
the groups list the items. -/

namespace Imflib

universe u v w x

section Sublists

variable {α : Type u} {a b l r all : List α} {item : α}

theorem append_cons_sublist_iff (left : item ∉ a) (right : item ∉ b) :
    (l ++ item :: r).Sublist (a ++ item :: b) ↔ l.Sublist a ∧ r.Sublist b := by
  constructor
  · intro sublist
    induction a generalizing l with
    | nil =>
        cases l with
        | nil => exact ⟨List.Sublist.refl [], List.cons_sublist_cons.mp sublist⟩
        | cons head tail =>
            refine absurd ?_ right
            have inside : (tail ++ item :: r).Sublist b := by
              cases sublist with
              | cons _ rest => exact (List.sublist_cons_self head _).trans rest
              | cons_cons _ rest => exact rest
            exact inside.subset (List.mem_append_right _ List.mem_cons_self)
    | cons head tail ih =>
        have elsewhere : item ∉ tail := fun member => left (List.mem_cons_of_mem _ member)
        cases l with
        | nil =>
            have different : item ≠ head := fun same => left (same ▸ List.mem_cons_self)
            have rest := List.Sublist.of_cons_of_ne different sublist
            exact ⟨List.nil_sublist _, (ih (l := []) elsewhere rest).2⟩
        | cons first others =>
            cases sublist with
            | cons _ rest =>
                obtain ⟨before, after⟩ := ih (l := first :: others) elsewhere rest
                exact ⟨before.cons head, after⟩
            | cons_cons _ rest =>
                obtain ⟨before, after⟩ := ih elsewhere rest
                exact ⟨before.cons_cons _, after⟩
  · intro both
    exact both.1.append (both.2.cons_cons item)

theorem sublist_insert_iff (absent : item ∉ l) :
    l.Sublist (a ++ item :: b) ↔ l.Sublist (a ++ b) := by
  constructor
  · intro sublist
    obtain ⟨first, second, rfl, before, after⟩ := List.sublist_append_iff.mp sublist
    refine before.append ?_
    cases after with
    | cons _ rest => exact rest
    | cons_cons _ _ => exact absurd (List.mem_append_right _ List.mem_cons_self) absent
  · intro sublist
    exact sublist.trans ((List.Sublist.refl a).append (List.sublist_cons_self item b))

theorem sublist_left_iff (nodup : (a ++ b).Nodup) (sublist : l.Sublist (a ++ b)) :
    l.Sublist a ↔ ∀ other ∈ l, other ∉ b := by
  constructor
  · intro inside other member late
    exact List.disjoint_of_nodup_append nodup (inside.subset member) late
  · intro none
    obtain ⟨first, second, rfl, before, after⟩ := List.sublist_append_iff.mp sublist
    have empty : second = [] := by
      refine List.eq_nil_iff_forall_not_mem.mpr fun other member => ?_
      exact none other (List.mem_append_right _ member) (after.subset member)
    rwa [empty, List.append_nil]

theorem filter_of_sublist {keep : α → Bool} (nodup : all.Nodup) (sublist : l.Sublist all)
    (same : ∀ item ∈ all, item ∈ l ↔ keep item) : l = all.filter keep := by
  induction sublist with
  | slnil => rfl
  | @cons l all head rest ih =>
      obtain ⟨new, others⟩ := List.nodup_cons.mp nodup
      have dropped : ¬keep head := fun kept =>
        new (rest.subset ((same head List.mem_cons_self).mpr kept))
      rw [List.filter_cons_of_neg dropped]
      exact ih others fun item member => same item (List.mem_cons_of_mem _ member)
  | @cons_cons l all head rest ih =>
      obtain ⟨new, others⟩ := List.nodup_cons.mp nodup
      rw [List.filter_cons_of_pos ((same head List.mem_cons_self).mp List.mem_cons_self)]
      refine congrArg (List.cons head) (ih others fun item member => ?_)
      rw [← same item (List.mem_cons_of_mem _ member), List.mem_cons]
      have different : item ≠ head := fun equal => new (equal ▸ member)
      rw [or_iff_right different]

theorem sublist_replace [DecidableEq α] {next : α} {rest : List α} (nodup : all.Nodup)
    (whole : (l ++ item :: r).Sublist all) (follows : (item :: next :: rest).Sublist all)
    (order : (next :: r).Sublist all) : (l ++ next :: r).Sublist (all.filter (· ≠ item)) := by
  obtain ⟨a, b, rfl⟩ := List.append_of_mem
    (whole.subset (List.mem_append_right _ List.mem_cons_self))
  obtain ⟨new, parts⟩ := List.nodup_cons.mp (List.nodup_middle.mp nodup)
  obtain ⟨notBefore, notAfter⟩ := not_or.mp (fun member => new (List.mem_append.mpr member))
  obtain ⟨before, -⟩ := (append_cons_sublist_iff notBefore notAfter).mp whole
  have after : (next :: rest).Sublist b :=
    ((append_cons_sublist_iff (l := []) notBefore notAfter).mp follows).2
  have late : next ∈ b := after.subset List.mem_cons_self
  have different : next ≠ item := fun same => notAfter (same ▸ late)
  -- The next item lies behind this one, and with it all that it comes before.
  have moved : (next :: r).Sublist b := by
    obtain ⟨first, second, same, inFirst, inSecond⟩ := List.sublist_append_iff.mp order
    cases first with
    | nil =>
        rw [List.nil_append] at same
        rw [← same] at inSecond
        exact List.Sublist.of_cons_of_ne different inSecond
    | cons head tail =>
        rw [List.cons_append] at same
        obtain ⟨rfl, -⟩ := List.cons.inj same
        exact absurd late (List.disjoint_of_nodup_append parts (inFirst.subset List.mem_cons_self))
  have kept : (a ++ item :: b).filter (· ≠ item) = a ++ b := by
    have others : ∀ other ∈ a ++ b, decide (other ≠ item) = true :=
      fun other member => decide_eq_true fun same => new (same ▸ member)
    rw [List.filter_append, List.filter_cons_of_neg (by simp), ← List.filter_append,
      List.filter_eq_self.mpr others]
  rw [kept]
  exact before.append moved

end Sublists

namespace CrossIndex

variable {γ : Type u} {τ : Type v} {α : Type w} {κ : Type x}

def headsOf (index : CrossIndex γ τ α κ) (tracks : List τ) : List α :=
  tracks.filterMap fun track => (index.trackItems track).head?

/-- The tracks list their items in the order of the groups, and are themselves in the order of
their first items. -/
structure InOrder (index : CrossIndex γ τ α κ) : Prop where
  items : ∀ track ∈ index.tracks, (index.trackItems track).Sublist index.items
  heads : (index.headsOf index.tracks).Sublist index.items

variable {index : CrossIndex γ τ α κ}

theorem Consistent.absent_of_fresh (consistent : index.Consistent) {item : α}
    (fresh : item ∉ index.items) {track : τ} (member : track ∈ index.tracks) :
    item ∉ index.trackItems track :=
  fun listed => fresh ((consistent.listed track member item).mp listed).1

theorem mem_headsOf {tracks : List τ} {item : α} :
    item ∈ index.headsOf tracks ↔ ∃ track ∈ tracks, (index.trackItems track).head? = some item :=
  List.mem_filterMap

theorem Consistent.heads_subset (consistent : index.Consistent) {item : α}
    (first : item ∈ index.headsOf index.tracks) : item ∈ index.items := by
  obtain ⟨track, member, head⟩ := mem_headsOf.mp first
  exact ((consistent.listed track member item).mp (List.mem_of_mem_head? head)).1

section Changes

variable [DecidableEq γ]

theorem items_addGroup {group : γ} {earlier later : List γ} (fresh : group ∉ index.groups)
    (groups : index.groups = earlier ++ later) :
    (index.addGroup group (earlier ++ group :: later)).items = index.items := by
  have outside : group ∉ earlier ++ later := groups ▸ fresh
  simp only [List.mem_append, not_or] at outside
  simp only [items, addGroup, groups, List.flatMap_append, List.flatMap_cons, Function.update_self,
    flatMap_update_of_not_mem outside.1, flatMap_update_of_not_mem outside.2, List.nil_append]

theorem InOrder.addGroup (ordered : index.InOrder) {group : γ} {earlier later : List γ}
    (fresh : group ∉ index.groups) (groups : index.groups = earlier ++ later) :
    (index.addGroup group (earlier ++ group :: later)).InOrder := by
  have same := items_addGroup fresh groups
  constructor
  · intro track member
    rw [same]
    exact ordered.items track member
  · rw [same]
    exact ordered.heads

variable [DecidableEq τ] [DecidableEq α]

omit [DecidableEq γ] [DecidableEq α] in
theorem headsOf_addTrack {track : τ} (fresh : track ∉ index.tracks) (key : κ) :
    (index.addTrack track key).headsOf (index.addTrack track key).tracks =
      index.headsOf index.tracks := by
  have old : ∀ other ∈ index.tracks,
      ((index.addTrack track key).trackItems other).head? = (index.trackItems other).head? :=
    fun other member => congrArg List.head? (update_of_mem fresh _ _ member)
  have own : (index.addTrack track key).trackItems track = [] := Function.update_self _ _ _
  have tracks : (index.addTrack track key).tracks = index.tracks ++ [track] := rfl
  rw [headsOf, tracks, List.filterMap_append, List.filterMap_congr old, List.filterMap_cons, own]
  exact List.append_nil _

omit [DecidableEq γ] [DecidableEq α] in
theorem InOrder.addTrack (ordered : index.InOrder) {track : τ} (fresh : track ∉ index.tracks)
    (key : κ) : (index.addTrack track key).InOrder := by
  constructor
  · intro other member
    rcases List.mem_append.mp member with old | new
    · have kept : (index.addTrack track key).trackItems other = index.trackItems other :=
        update_of_mem fresh _ _ old
      rw [kept]
      exact ordered.items other old
    · have own : (index.addTrack track key).trackItems track = [] := Function.update_self _ _ _
      rw [List.mem_singleton.mp new, own]
      exact List.nil_sublist _
  · rw [headsOf_addTrack fresh]
    exact ordered.heads

theorem items_link {group : γ} {earlier later : List γ} (nodup : index.groups.Nodup)
    (groups : index.groups = earlier ++ group :: later) (track : τ) (item : α) :
    (index.link group track item).items =
      (earlier ++ [group]).flatMap index.groupItems ++ item :: later.flatMap index.groupItems := by
  rw [groups, List.nodup_middle] at nodup
  have outside := (List.nodup_cons.mp nodup).1
  simp only [List.mem_append, not_or] at outside
  simp only [items, link, groups, List.flatMap_append, List.flatMap_cons, List.flatMap_nil,
    Function.update_self, flatMap_update_of_not_mem outside.1,
    flatMap_update_of_not_mem outside.2, List.append_assoc, List.append_nil, List.cons_append,
    List.nil_append]

section Link

variable {group : γ} {earlier later : List γ} {track : τ} {item : α}

omit [DecidableEq γ] [DecidableEq τ] [DecidableEq α] in
theorem items_split (groups : index.groups = earlier ++ group :: later) : index.items =
    (earlier ++ [group]).flatMap index.groupItems ++ later.flatMap index.groupItems := by
  simp only [items, groups, List.flatMap_append, List.flatMap_cons, List.flatMap_nil,
    List.append_assoc, List.append_nil]

variable (consistent : index.Consistent) (ordered : index.InOrder)
  (groups : index.groups = earlier ++ group :: later) (fresh : item ∉ index.items)

include consistent groups fresh

variable (track) in
theorem append_link_iff {listed : List α} (before : listed.Sublist index.items) :
    (listed ++ [item]).Sublist (index.link group track item).items ↔
      ∀ other ∈ listed, other ∉ later.flatMap index.groupItems := by
  have nodup := consistent.items_nodup
  rw [items_split groups] at before nodup fresh
  obtain ⟨notBefore, notAfter⟩ := not_or.mp (fun member => fresh (List.mem_append.mpr member))
  rw [items_link consistent.groups_nodup groups, append_cons_sublist_iff notBefore notAfter,
    and_iff_left (List.nil_sublist _), sublist_left_iff nodup before]

omit fresh in
theorem sublist_link_iff {listed : List α} (absent : item ∉ listed) :
    listed.Sublist (index.link group track item).items ↔ listed.Sublist index.items := by
  rw [items_link consistent.groups_nodup groups, items_split groups, sublist_insert_iff absent]

include ordered

theorem others_link {other : τ} (member : other ∈ index.tracks) (different : other ≠ track) :
    ((index.link group track item).trackItems other).Sublist
      (index.link group track item).items := by
  have kept : (index.link group track item).trackItems other = index.trackItems other :=
    Function.update_of_ne different _ _
  rw [kept, sublist_link_iff consistent groups (consistent.absent_of_fresh fresh member)]
  exact ordered.items other member

/-- An item of a track that has begun has to come behind all of its items. -/
theorem inOrder_link_iff (member : track ∈ index.tracks) (begun : index.trackItems track ≠ []) :
    (index.link group track item).InOrder ↔
      ∀ other ∈ index.trackItems track, other ∉ later.flatMap index.groupItems := by
  have own : (index.link group track item).trackItems track = index.trackItems track ++ [item] :=
    Function.update_self _ _ _
  have last := append_link_iff track consistent groups fresh
    (ordered.items track member)
  have heads : (index.link group track item).headsOf (index.link group track item).tracks =
      index.headsOf index.tracks := by
    refine List.filterMap_congr fun other _ => ?_
    by_cases same : other = track
    · rw [same, own, List.head?_append_of_ne_nil _ begun]
    · exact congrArg List.head? (Function.update_of_ne same _ _)
  rw [← last, ← own]
  constructor
  · intro after
    exact after.items track member
  · intro inOrder
    constructor
    · intro other listed
      by_cases same : other = track
      · rw [same]
        exact inOrder
      · exact others_link consistent ordered groups fresh listed same
    · rw [heads, sublist_link_iff consistent groups
        (fun first => fresh (consistent.heads_subset first))]
      exact ordered.heads

theorem inOrder_link_new_iff {olds : List τ} (tracks : index.tracks = olds ++ [track])
    (empty : index.trackItems track = []) :
    (index.link group track item).InOrder ↔
      ∀ first ∈ index.headsOf index.tracks, first ∉ later.flatMap index.groupItems := by
  have nodup := consistent.tracks_nodup
  rw [tracks] at nodup
  have apart : ∀ other ∈ olds, other ≠ track := by
    intro other member same
    exact List.disjoint_of_nodup_append nodup member (same ▸ List.mem_singleton_self other)
  have own : (index.link group track item).trackItems track = [item] := by
    refine (Function.update_self _ _ _).trans ?_
    rw [empty, List.nil_append]
  have heads : (index.link group track item).headsOf (index.link group track item).tracks =
      index.headsOf index.tracks ++ [item] := by
    have kept : ∀ other ∈ olds, ((index.link group track item).trackItems other).head? =
        (index.trackItems other).head? :=
      fun other member => congrArg List.head? (Function.update_of_ne (apart other member) _ _)
    have same : (index.link group track item).tracks = olds ++ [track] := tracks
    simp only [headsOf, same, tracks, List.filterMap_append, List.filterMap_congr kept,
      List.filterMap_cons, List.filterMap_nil, own, empty, List.head?_nil, List.head?_cons,
      List.append_nil]
  have last := append_link_iff track consistent groups fresh ordered.heads
  rw [← last, ← heads]
  constructor
  · intro after
    exact after.heads
  · intro inOrder
    refine ⟨fun other listed => ?_, inOrder⟩
    by_cases same : other = track
    · rw [same, own, items_link consistent.groups_nodup groups]
      exact List.singleton_sublist.mpr (List.mem_append_right _ List.mem_cons_self)
    · exact others_link consistent ordered groups fresh listed same

end Link

section Remove

variable {group : γ} {earlier later : List τ} {track : τ} {item : α}

theorem items_remove (consistent : index.Consistent) (member : group ∈ index.groups)
    (inside : item ∈ index.groupItems group) :
    (index.remove group track item).items = index.items.filter (· ≠ item) := by
  have settled : (index.remove group track item).items = (index.unlink group track item).items :=
    items_dropEmptyGroup (index.unlink group track item) group
  rw [settled, items, items, List.filter_flatMap]
  refine List.flatMap_congr fun other listed => ?_
  by_cases same : other = group
  · rw [same]
    exact Function.update_self _ _ _
  · refine (Function.update_of_ne same _ _).trans (List.filter_eq_self.mpr ?_).symm
    intro candidate inOther
    rw [decide_eq_true_iff]
    intro equal
    exact same (consistent.group_unique listed member (equal ▸ inOther) inside)

omit [DecidableEq γ] [DecidableEq α] in
theorem headsOf_dropEmptyTrack (index : CrossIndex γ τ α κ) (track : τ) :
    (index.dropEmptyTrack track).headsOf (index.dropEmptyTrack track).tracks =
      index.headsOf index.tracks := by
  unfold dropEmptyTrack headsOf
  dsimp only
  split
  · rename_i empty
    rw [List.filterMap_filter]
    refine List.filterMap_congr fun other _ => ?_
    by_cases same : other = track
    · simp [same, List.isEmpty_iff.mp empty]
    · simp [same]
  · rfl

omit [DecidableEq γ] [DecidableEq τ] [DecidableEq α] in
theorem headsOf_split (index : CrossIndex γ τ α κ) (earlier later : List τ) (track : τ) :
    index.headsOf (earlier ++ track :: later) =
      index.headsOf earlier ++ (index.trackItems track).head?.toList ++ index.headsOf later := by
  cases head : (index.trackItems track).head? <;>
    simp [headsOf, head]

omit [DecidableEq γ] [DecidableEq τ] [DecidableEq α] in
theorem Consistent.lister_unique (consistent : index.Consistent) {first second : τ}
    (firstMember : first ∈ index.tracks) (secondMember : second ∈ index.tracks)
    (inFirst : item ∈ index.trackItems first) (inSecond : item ∈ index.trackItems second) :
    first = second := by
  have firstKey := ((consistent.listed first firstMember item).mp inFirst).2
  have secondKey := ((consistent.listed second secondMember item).mp inSecond).2
  exact consistent.track_unique firstMember secondMember (firstKey.symm.trans secondKey)

omit [DecidableEq γ] [DecidableEq τ] [DecidableEq α] in
theorem Consistent.others_of_split (consistent : index.Consistent)
    (tracks : index.tracks = earlier ++ track :: later) {other : τ}
    (member : other ∈ earlier ++ later) : other ∈ index.tracks ∧ other ≠ track := by
  have nodup := consistent.tracks_nodup
  rw [tracks, List.nodup_middle] at nodup
  refine ⟨?_, fun same => (List.nodup_cons.mp nodup).1 (same ▸ member)⟩
  rw [tracks]
  rcases List.mem_append.mp member with before | after
  · exact List.mem_append_left _ before
  · exact List.mem_append_right _ (List.mem_cons_of_mem _ after)

theorem headsOf_remove (consistent : index.Consistent)
    (tracks : index.tracks = earlier ++ track :: later) :
    (index.remove group track item).headsOf (index.remove group track item).tracks =
      index.headsOf earlier ++ ((index.trackItems track).filter (· ≠ item)).head?.toList ++
        index.headsOf later := by
  have kept : ∀ other ∈ earlier ++ later, ((index.unlink group track item).trackItems other).head? =
      (index.trackItems other).head? := fun other member =>
    congrArg List.head?
      (Function.update_of_ne (consistent.others_of_split tracks member).2 _ _)
  have before := List.filterMap_congr fun other member =>
    kept other (List.mem_append_left later member)
  have after := List.filterMap_congr fun other member =>
    kept other (List.mem_append_right earlier member)
  have own : (index.unlink group track item).trackItems track =
      (index.trackItems track).filter (· ≠ item) := Function.update_self _ _ _
  have same : ((index.unlink group track item).dropEmptyGroup group).tracks =
      earlier ++ track :: later := tracks
  rw [remove, headsOf_dropEmptyTrack, same, headsOf_split]
  exact congrArg₂ (· ++ ·) (congrArg₂ (· ++ ·) before (congrArg (·.head?.toList) own)) after

theorem items_inOrder_remove (consistent : index.Consistent) (ordered : index.InOrder)
    (member : group ∈ index.groups) (inside : item ∈ index.groupItems group)
    (trackMember : track ∈ index.tracks) (listed : item ∈ index.trackItems track) :
    ∀ other ∈ (index.remove group track item).tracks,
      ((index.remove group track item).trackItems other).Sublist
        (index.remove group track item).items := by
  intro other remaining
  have otherMember : other ∈ index.tracks := (mem_dropEmptyTrack.mp remaining).1
  have whole := (ordered.items other otherMember).filter (· ≠ item)
  rw [items_remove consistent member inside]
  by_cases same : other = track
  · have own : (index.remove group track item).trackItems other =
        (index.trackItems other).filter (· ≠ item) := by
      rw [same]
      exact Function.update_self _ _ _
    rwa [own]
  · have kept : (index.remove group track item).trackItems other = index.trackItems other :=
      Function.update_of_ne same _ _
    have without : (index.trackItems other).filter (· ≠ item) = index.trackItems other := by
      refine List.filter_eq_self.mpr fun candidate held => decide_eq_true fun equal => ?_
      exact same (consistent.lister_unique otherMember trackMember (equal ▸ held) listed)
    rwa [kept, ← without]

/-- If the first item of a track is taken out, the next one has to come before the first items
of the tracks behind it. -/
theorem inOrder_remove_iff (consistent : index.Consistent) (ordered : index.InOrder)
    (member : group ∈ index.groups) (inside : item ∈ index.groupItems group)
    (tracks : index.tracks = earlier ++ track :: later)
    (carried : index.itemKey item = index.trackKey track) :
    (index.remove group track item).InOrder ↔
      ∀ next rest, index.trackItems track = item :: next :: rest →
        (next :: index.headsOf later).Sublist index.items := by
  have trackMember : track ∈ index.tracks :=
    tracks ▸ List.mem_append_right _ List.mem_cons_self
  have listed : item ∈ index.trackItems track :=
    (consistent.listed track trackMember item).mpr ⟨mem_items_of_mem member inside, carried⟩
  have absent (part : List τ) (within : ∀ other ∈ part, other ∈ earlier ++ later) :
      item ∉ index.headsOf part := by
    intro first
    obtain ⟨other, inPart, head⟩ := mem_headsOf.mp first
    obtain ⟨otherMember, different⟩ := consistent.others_of_split tracks (within other inPart)
    exact different (consistent.lister_unique otherMember trackMember
      (List.mem_of_mem_head? head) listed)
  have notBefore := absent earlier fun other => List.mem_append_left later
  have notAfter := absent later fun other => List.mem_append_right earlier
  have heads := ordered.heads
  rw [tracks, headsOf_split] at heads
  have only : (index.remove group track item).InOrder ↔
      (index.headsOf earlier ++ ((index.trackItems track).filter (· ≠ item)).head?.toList ++
        index.headsOf later).Sublist (index.items.filter (· ≠ item)) := by
    have items : (index.remove group track item).items = index.items.filter (· ≠ item) :=
      items_remove consistent member inside
    rw [← items, ← headsOf_remove consistent tracks]
    exact ⟨InOrder.heads, fun after =>
      ⟨items_inOrder_remove consistent ordered member inside trackMember listed, after⟩⟩
  rw [only]
  have without {list : List α} (notThere : item ∉ list) : list.filter (· ≠ item) = list :=
    List.filter_eq_self.mpr fun other held => decide_eq_true fun same => notThere (same ▸ held)
  cases own : index.trackItems track with
  | nil => exact absurd listed (own ▸ List.not_mem_nil)
  | cons first others =>
      have nodup := consistent.listed_nodup track trackMember
      rw [own] at nodup heads
      have elsewhere := (List.nodup_cons.mp nodup).1
      rw [List.head?_cons, Option.toList_some, List.append_assoc, List.singleton_append] at heads
      by_cases same : first = item
      · subst same
        rw [List.filter_cons_of_neg (by simp), without elsewhere]
        cases others with
        | nil =>
            refine iff_of_true ?_ nofun
            have left := heads.filter (· ≠ first)
            rw [List.filter_append, List.filter_cons_of_neg (by simp), without notBefore,
              without notAfter] at left
            simpa using left
        | cons next rest =>
            rw [List.head?_cons, Option.toList_some, List.append_assoc, List.singleton_append]
            constructor
            · intro after other more equal
              obtain ⟨-, tail⟩ := List.cons.inj equal
              obtain ⟨rfl, -⟩ := List.cons.inj tail
              exact ((List.sublist_append_right _ _).trans after).trans List.filter_sublist
            · intro order
              exact sublist_replace consistent.items_nodup heads
                (own ▸ ordered.items track trackMember) (order next rest rfl)
      · rw [List.filter_cons_of_pos (by simpa using same), List.head?_cons, Option.toList_some,
          List.append_assoc, List.singleton_append]
        refine iff_of_true ?_ fun next rest equal => absurd (List.cons.inj equal).1 same
        have left := heads.filter (· ≠ item)
        rwa [List.filter_append, List.filter_cons_of_pos (by simpa using same), without notBefore,
          without notAfter] at left

end Remove

end Changes

end CrossIndex

section Regroup

variable {α : Type u} {β : Type v} {κ : Type w}

theorem eq_of_map_eq {f : α → β} (within : α → Prop)
    (injective : ∀ a b, within a → within b → f a = f b → a = b) {first second : List α}
    (inFirst : ∀ a ∈ first, within a) (inSecond : ∀ a ∈ second, within a)
    (same : first.map f = second.map f) : first = second := by
  induction first generalizing second with
  | nil => exact (List.map_eq_nil_iff.mp same.symm).symm
  | cons head tail ih =>
      cases second with
      | nil => cases same
      | cons other rest =>
          obtain ⟨heads, tails⟩ := List.cons.inj same
          have atHead := injective head other (inFirst head List.mem_cons_self)
            (inSecond other List.mem_cons_self) heads
          have later := ih (fun a member => inFirst a (List.mem_cons_of_mem _ member))
            (fun a member => inSecond a (List.mem_cons_of_mem _ member)) tails
          rw [atHead, later]

variable [DecidableEq α] [DecidableEq β] [DecidableEq κ]

/-- Items by their keys, in the order in which the keys appear first. -/
def regroup (key : α → κ) (items : List α) : List (κ × List α) :=
  (items.filter fun item => items.find? (fun other => key other = key item) = some item).map
    fun item => (key item, items.filter fun other => key other = key item)

theorem eq_of_mem_regroup {key : α → κ} {items : List α} {group : κ × List α}
    (member : group ∈ regroup key items) :
    group.2 = items.filter fun other => key other = group.1 := by
  obtain ⟨first, -, rfl⟩ := List.mem_map.mp member
  rfl

theorem mem_of_mem_regroup {key : α → κ} {items : List α} {group : κ × List α}
    (member : group ∈ regroup key items) {item : α} (inside : item ∈ group.2) : item ∈ items := by
  rw [eq_of_mem_regroup member] at inside
  exact List.mem_of_mem_filter inside

theorem keys_regroup_nodup (key : α → κ) {items : List α} (nodup : items.Nodup) :
    ((regroup key items).map Prod.fst).Nodup := by
  rw [regroup, List.map_map]
  refine List.Nodup.map_on ?_ (nodup.filter _)
  intro first firstMember second secondMember same
  -- Both are the first item with their key.
  have found := of_decide_eq_true (List.mem_filter.mp firstMember).2
  have other := of_decide_eq_true (List.mem_filter.mp secondMember).2
  have keys : key first = key second := same
  rw [keys] at found
  exact Option.some.inj (found.symm.trans other)

theorem mem_keys_regroup (key : α → κ) {items : List α} {wanted : κ} :
    wanted ∈ (regroup key items).map Prod.fst ↔ wanted ∈ items.map key := by
  constructor
  · intro member
    rw [regroup, List.map_map] at member
    obtain ⟨item, first, rfl⟩ := List.mem_map.mp member
    exact List.mem_map_of_mem (List.mem_of_mem_filter first)
  · intro member
    obtain ⟨item, present, rfl⟩ := List.mem_map.mp member
    have there : (items.find? fun other => key other = key item).isSome :=
      List.find?_isSome.mpr ⟨item, present, decide_eq_true rfl⟩
    obtain ⟨first, found⟩ := Option.isSome_iff_exists.mp there
    have same : key first = key item := by simpa using List.find?_some found
    rw [regroup, List.map_map]
    refine List.mem_map.mpr ⟨first, List.mem_filter.mpr ⟨List.mem_of_find?_eq_some found, ?_⟩, same⟩
    rw [same]
    exact decide_eq_true found

theorem regroup_map {key : α → κ} {other : β → κ} {items : List α} {f : α → β}
    (keys : ∀ item ∈ items, other (f item) = key item)
    (injective : ∀ first ∈ items, ∀ second ∈ items, f first = f second → first = second) :
    regroup other (items.map f) =
      (regroup key items).map fun group => (group.1, group.2.map f) := by
  have sameKey : ∀ item ∈ items, ∀ candidate ∈ items,
      decide (other (f candidate) = other (f item)) = decide (key candidate = key item) := by
    intro item member candidate inside
    rw [keys candidate inside, keys item member]
  have first : ∀ item ∈ items,
      decide ((items.map f).find? (fun candidate => other candidate = other (f item)) =
          some (f item)) =
        decide (items.find? (fun candidate => key candidate = key item) = some item) := by
    intro item member
    have found : (items.map f).find? (fun candidate => other candidate = other (f item)) =
        (items.find? fun candidate => key candidate = key item).map f := by
      rw [List.find?_map]
      exact congrArg (Option.map f) (List.find?_congr (sameKey item member))
    rw [found, decide_eq_decide]
    constructor
    · intro same
      obtain ⟨candidate, present, equal⟩ := Option.map_eq_some_iff.mp same
      rw [present, injective candidate (List.mem_of_find?_eq_some present) item member equal]
    · intro same
      rw [same, Option.map_some]
  have lists : ∀ item ∈ items,
      (items.map f).filter (fun candidate => other candidate = other (f item)) =
        (items.filter fun candidate => key candidate = key item).map f := by
    intro item member
    rw [List.filter_map]
    exact congrArg (List.map f) (List.filter_congr (sameKey item member))
  have firsts : (items.map f).filter (fun item =>
      (items.map f).find? (fun candidate => other candidate = other item) = some item) =
      (items.filter fun item =>
        items.find? (fun candidate => key candidate = key item) = some item).map f := by
    rw [List.filter_map]
    exact congrArg (List.map f) (List.filter_congr first)
  rw [regroup, firsts, regroup, List.map_map, List.map_map]
  refine List.map_congr_left fun item member => ?_
  have inside := List.mem_of_mem_filter member
  exact Prod.ext (keys item inside) (lists item inside)

end Regroup

namespace CrossIndex

variable {γ : Type u} {τ : Type v} {α : Type w} {κ : Type x} [DecidableEq α] [DecidableEq κ]

def trackLists (index : CrossIndex γ τ α κ) : List (κ × List α) :=
  index.tracks.map fun track => (index.trackKey track, index.trackItems track)

variable {index : CrossIndex γ τ α κ}

omit [DecidableEq α] in
theorem InOrder.trackItems_eq (ordered : index.InOrder) (consistent : index.Consistent) {track : τ}
    (member : track ∈ index.tracks) : index.trackItems track =
      index.items.filter fun item => index.itemKey item = index.trackKey track := by
  refine filter_of_sublist consistent.items_nodup (ordered.items track member) ?_
  intro item present
  rw [consistent.listed track member, decide_eq_true_iff]
  exact and_iff_right present

theorem InOrder.heads_eq (ordered : index.InOrder) (consistent : index.Consistent) :
    index.headsOf index.tracks = index.items.filter fun item =>
      index.items.find? (fun other => index.itemKey other = index.itemKey item) = some item := by
  refine filter_of_sublist consistent.items_nodup ordered.heads ?_
  intro item present
  rw [mem_headsOf, decide_eq_true_iff]
  have head {track : τ} (member : track ∈ index.tracks) : (index.trackItems track).head? =
      index.items.find? (fun other => index.itemKey other = index.trackKey track) := by
    rw [ordered.trackItems_eq consistent member, List.head?_filter]
  constructor
  · intro first
    obtain ⟨track, member, found⟩ := first
    have key := ((consistent.listed track member item).mp (List.mem_of_mem_head? found)).2
    rw [key, ← head member, found]
  · intro first
    obtain ⟨track, member, key⟩ := List.mem_map.mp (consistent.owned item present)
    refine ⟨track, member, ?_⟩
    rw [head member, key, first]

theorem Consistent.keys_perm (consistent : index.Consistent)
    (filled : ∀ track ∈ index.tracks, index.trackItems track ≠ []) :
    ((regroup index.itemKey index.items).map Prod.fst).Perm (index.trackLists.map Prod.fst) := by
  have keys : index.trackLists.map Prod.fst = index.tracks.map index.trackKey := List.map_map
  rw [keys]
  refine (List.perm_ext_iff_of_nodup (keys_regroup_nodup _ consistent.items_nodup)
    consistent.keys_nodup).mpr fun key => ?_
  rw [mem_keys_regroup]
  constructor
  · intro member
    obtain ⟨item, present, rfl⟩ := List.mem_map.mp member
    exact consistent.owned item present
  · intro member
    obtain ⟨track, listed, rfl⟩ := List.mem_map.mp member
    obtain ⟨first, rest, own⟩ := List.exists_cons_of_ne_nil (filled track listed)
    have inside : first ∈ index.trackItems track := own ▸ List.mem_cons_self
    obtain ⟨present, key⟩ := (consistent.listed track listed first).mp inside
    exact List.mem_map.mpr ⟨first, present, key⟩

theorem Consistent.lists_perm (consistent : index.Consistent) {key : κ} {items listed : List α}
    (grouped : (key, items) ∈ regroup index.itemKey index.items)
    (tracked : (key, listed) ∈ index.trackLists) : items.Perm listed := by
  obtain ⟨track, member, same⟩ := List.mem_map.mp tracked
  obtain ⟨rfl, rfl⟩ := Prod.mk.inj same
  have grouping : items = index.items.filter fun item => index.itemKey item = index.trackKey track :=
    eq_of_mem_regroup grouped
  rw [grouping]
  refine (List.perm_ext_iff_of_nodup (consistent.items_nodup.filter _)
    (consistent.listed_nodup track member)).mpr fun item => ?_
  rw [List.mem_filter, decide_eq_true_iff, consistent.listed track member]

/-- The tracks are in order exactly if they are what grouping the items gives. -/
theorem inOrder_iff (consistent : index.Consistent)
    (filled : ∀ track ∈ index.tracks, index.trackItems track ≠ []) :
    index.InOrder ↔ index.trackLists = regroup index.itemKey index.items := by
  constructor
  · intro ordered
    have each : ∀ track ∈ index.tracks, ((index.trackItems track).head?.map fun item =>
        (index.itemKey item, index.items.filter fun other =>
          index.itemKey other = index.itemKey item)) =
        some (index.trackKey track, index.trackItems track) := by
      intro track member
      obtain ⟨first, rest, own⟩ := List.exists_cons_of_ne_nil (filled track member)
      have inside : first ∈ index.trackItems track := own ▸ List.mem_cons_self
      have key := ((consistent.listed track member first).mp inside).2
      rw [own, List.head?_cons, Option.map_some, key, ← own,
        ← ordered.trackItems_eq consistent member]
    rw [regroup, ← ordered.heads_eq consistent, headsOf, List.map_filterMap,
      List.filterMap_congr each, trackLists]
    exact (congrFun List.filterMap_eq_map' index.tracks).symm
  · intro same
    constructor
    · intro track member
      have listed : (index.trackKey track, index.trackItems track) ∈ index.trackLists :=
        List.mem_map_of_mem member
      rw [same] at listed
      obtain ⟨item, -, equal⟩ := List.mem_map.mp listed
      rw [← (Prod.mk.inj equal).2]
      exact List.filter_sublist
    · have heads : index.headsOf index.tracks = index.trackLists.filterMap (·.2.head?) := by
        rw [trackLists, List.filterMap_map]
        rfl
      have firsts : ∀ item ∈ index.items.filter (fun item => index.items.find?
          (fun other => index.itemKey other = index.itemKey item) = some item),
          (index.items.filter fun other => index.itemKey other = index.itemKey item).head? =
            some item := by
        intro item member
        rw [List.head?_filter]
        exact of_decide_eq_true (List.mem_filter.mp member).2
      rw [heads, same, regroup, List.filterMap_map]
      have found := (List.filterMap_congr firsts).trans List.filterMap_some
      exact (congrArg (List.Sublist · index.items) found).mpr List.filter_sublist

end CrossIndex

end Imflib
