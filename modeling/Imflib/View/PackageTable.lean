import Imflib.Package.PackageXml

/-! The table of the package view: which items of the package it shows, and in what order. -/

namespace Imflib.View

open Imflib.Package

/-- A row refers to an item of the package, by its place in one of the lists there. -/
inductive TableRow where
  | video (index : Nat)
  | audio (index : Nat)
  | playlist (index : Nat)
  | profile (index : Nat)
  deriving DecidableEq, Repr

namespace TableRow

variable (package : IMFPackage)

def item : TableRow → Option IMFPackageItem
  | .video index => (package.videoTracks.map TrackFile.item)[index]?
  | .audio index => (package.audioTracks.map TrackFile.item)[index]?
  | .playlist index => (package.compositionPlaylists.map IMFCompositionPlaylist.item)[index]?
  | .profile index => (package.outputProfiles.map IMFOutputProfile.item)[index]?

def track : TableRow → Option IMFTrack
  | .video index => (package.videoTracks.map TrackFile.track)[index]?
  | .audio index => (package.audioTracks.map TrackFile.track)[index]?
  | .playlist _ | .profile _ => none

def uuid (row : TableRow) : Option String := (row.item package).map IMFPackageItem.uuid

end TableRow

namespace PackageModel

variable (package : IMFPackage)

def hasItem (data : List TableRow) (row : TableRow) : Bool :=
  data.any fun other => row.uuid package = other.uuid package

def appendItem (data : List TableRow) (row : TableRow) : List TableRow := data ++ [row]

/-- The loops that fill the table: an item whose identifier is shown already is left out. -/
def appendMissing (data rows : List TableRow) : List TableRow :=
  rows.foldl (fun data row => if hasItem package data row then data else appendItem data row) data

def trackRows : List TableRow :=
  (List.range package.videoTracks.length).map .video ++
    (List.range package.audioTracks.length).map .audio

/-- The items in the order in which `OpenFile` collects them. -/
def assetRows : List TableRow :=
  trackRows package ++ (List.range package.compositionPlaylists.length).map .playlist ++
    (List.range package.outputProfiles.length).map .profile

end PackageModel

/-- The rows refer to items of the package, no identifier is shown twice and none is missing. -/
structure Tabled (package : IMFPackage) (data : List TableRow) : Prop where
  present : ∀ row ∈ data, (row.item package).isSome = true
  once : (data.map (TableRow.uuid package)).Nodup
  complete : ∀ item ∈ package.assets, some item.uuid ∈ data.map (TableRow.uuid package)

namespace TableRow

variable {package after : IMFPackage}

theorem exists_item_iff {item : IMFPackageItem} :
    (∃ row : TableRow, row.item package = some item) ↔ item ∈ package.assets := by
  simp only [IMFPackage.assets, IMFPackage.tracks, List.map_append, List.mem_append]
  simp only [List.mem_iff_getElem?]
  constructor
  · intro found
    obtain ⟨row, found⟩ := found
    cases row with
    | video index => exact .inl (.inl (.inl ⟨index, found⟩))
    | audio index => exact .inl (.inl (.inr ⟨index, found⟩))
    | playlist index => exact .inl (.inr ⟨index, found⟩)
    | profile index => exact .inr ⟨index, found⟩
  · rintro (((⟨index, found⟩ | ⟨index, found⟩) | ⟨index, found⟩) | ⟨index, found⟩)
    · exact ⟨.video index, found⟩
    · exact ⟨.audio index, found⟩
    · exact ⟨.playlist index, found⟩
    · exact ⟨.profile index, found⟩

theorem mem_tracks {row : TableRow} {track : IMFTrack} (dragged : row.track package = some track) :
    track ∈ package.tracks.map TrackFile.track := by
  rw [IMFPackage.tracks, List.map_append]
  cases row with
  | video index => exact List.mem_append_left _ (List.mem_of_getElem? dragged)
  | audio index => exact List.mem_append_right _ (List.mem_of_getElem? dragged)
  | playlist index => cases dragged
  | profile index => cases dragged

theorem mem_assetRows {row : TableRow} :
    row ∈ PackageModel.assetRows package ↔ (row.item package).isSome = true := by
  cases row <;> simp [PackageModel.assetRows, PackageModel.trackRows, item]

end TableRow

namespace Tabled

variable {package after : IMFPackage} {data rows : List TableRow}

theorem appendMissing_once (once : (data.map (TableRow.uuid package)).Nodup) (rows : List TableRow) :
    ((PackageModel.appendMissing package data rows).map (TableRow.uuid package)).Nodup ∧
      (∀ row ∈ PackageModel.appendMissing package data rows, row ∈ data ∨ row ∈ rows) ∧
      ∀ uuid, uuid ∈ (PackageModel.appendMissing package data rows).map (TableRow.uuid package) ↔
        uuid ∈ data.map (TableRow.uuid package) ∨ uuid ∈ rows.map (TableRow.uuid package) := by
  induction rows generalizing data with
  | nil => exact ⟨once, fun row member => .inl member, fun uuid => by simp [PackageModel.appendMissing]⟩
  | cons row rest ih =>
      rw [PackageModel.appendMissing, List.foldl_cons, ← PackageModel.appendMissing]
      by_cases shown : PackageModel.hasItem package data row = true
      · rw [if_pos shown]
        have listed : row.uuid package ∈ data.map (TableRow.uuid package) := by
          obtain ⟨other, member, same⟩ := List.any_eq_true.mp shown
          rw [of_decide_eq_true same]
          exact List.mem_map_of_mem member
        obtain ⟨nodup, from_, uuids⟩ := ih once
        refine ⟨nodup, fun other member => ?_, fun uuid => ?_⟩
        · exact (from_ other member).imp_right (List.mem_cons_of_mem _)
        · rw [uuids, List.map_cons, List.mem_cons]
          constructor
          · exact fun either => either.imp_right .inr
          · rintro (old | rfl | new)
            · exact .inl old
            · exact .inl listed
            · exact .inr new
      · rw [if_neg shown]
        have absent : row.uuid package ∉ data.map (TableRow.uuid package) := by
          intro listed
          obtain ⟨other, member, same⟩ := List.mem_map.mp listed
          exact shown (List.any_eq_true.mpr ⟨other, member, decide_eq_true same.symm⟩)
        have appended : ((PackageModel.appendItem data row).map (TableRow.uuid package)).Nodup := by
          rw [PackageModel.appendItem, List.map_append, List.map_singleton]
          exact List.Nodup.append once (List.nodup_singleton _)
            (List.disjoint_singleton.mpr absent)
        obtain ⟨nodup, from_, uuids⟩ := ih appended
        refine ⟨nodup, fun other member => ?_, fun uuid => ?_⟩
        · rcases from_ other member with before | later
          · rcases List.mem_append.mp before with old | own
            · exact .inl old
            · exact .inr (List.mem_singleton.mp own ▸ List.mem_cons_self)
          · exact .inr (List.mem_cons_of_mem _ later)
        · rw [uuids, PackageModel.appendItem, List.map_append, List.mem_append, List.map_singleton,
            List.mem_singleton, List.map_cons, List.mem_cons, or_assoc]

/-- Every list has the identifiers it had, and others behind them. -/
structure Extends (package after : IMFPackage) : Prop where
  videoTracks : package.videoTracks.map (·.item.uuid) <+: after.videoTracks.map (·.item.uuid)
  audioTracks : package.audioTracks.map (·.item.uuid) <+: after.audioTracks.map (·.item.uuid)
  compositionPlaylists : package.compositionPlaylists.map (·.item.uuid) <+:
    after.compositionPlaylists.map (·.item.uuid)
  outputProfiles : package.outputProfiles.map (·.item.uuid) <+:
    after.outputProfiles.map (·.item.uuid)

theorem Extends.uuid (extends_ : Extends package after) {row : TableRow} {uuid : String}
    (shown : row.uuid package = some uuid) : row.uuid after = some uuid := by
  have still {α : Type} {old new : List α} {item : α → IMFPackageItem} {index : Nat}
      (grown : old.map (fun value => (item value).uuid) <+: new.map fun value => (item value).uuid)
      (found : ((old.map item)[index]?).map IMFPackageItem.uuid = some uuid) :
      ((new.map item)[index]?).map IMFPackageItem.uuid = some uuid := by
    rw [← List.getElem?_map, List.map_map] at found ⊢
    obtain ⟨more, same⟩ := grown
    exact same ▸ List.getElem?_append_left (List.getElem?_eq_some_iff.mp found).1 ▸ found
  cases row with
  | video index => exact still extends_.videoTracks shown
  | audio index => exact still extends_.audioTracks shown
  | playlist index => exact still extends_.compositionPlaylists shown
  | profile index => exact still extends_.outputProfiles shown

theorem Extends.map_uuid (extends_ : Extends package after) (tabled : Tabled package data) :
    data.map (TableRow.uuid after) = data.map (TableRow.uuid package) := by
  refine List.map_congr_left fun row member => ?_
  obtain ⟨item, found⟩ := Option.isSome_iff_exists.mp (tabled.present row member)
  have shown : row.uuid package = some item.uuid := by rw [TableRow.uuid, found, Option.map_some]
  rw [extends_.uuid shown, shown]

theorem extend (tabled : Tabled package data) (extends_ : Extends package after)
    (present : ∀ row ∈ rows, (row.item after).isSome = true)
    (complete : ∀ item ∈ after.assets, some item.uuid ∈ data.map (TableRow.uuid package) ∨
      some item.uuid ∈ rows.map (TableRow.uuid after)) :
    Tabled after (PackageModel.appendMissing after data rows) := by
  have same := extends_.map_uuid tabled
  obtain ⟨once, from_, uuids⟩ := appendMissing_once (same ▸ tabled.once) rows
  refine ⟨fun row member => ?_, once, fun item member => ?_⟩
  · rcases from_ row member with old | new
    · obtain ⟨item, found⟩ := Option.isSome_iff_exists.mp (tabled.present row old)
      have shown : row.uuid package = some item.uuid := by
        rw [TableRow.uuid, found, Option.map_some]
      have still := extends_.uuid shown
      rw [TableRow.uuid] at still
      exact Option.isSome_map.symm.trans (by rw [still]; rfl)
    · exact present row new
  · rw [uuids, same]
    exact complete item member

theorem congr (tabled : Tabled package data) (extends_ : Extends package after)
    (uuids : ∀ item ∈ after.assets, ∃ old ∈ package.assets, old.uuid = item.uuid) :
    Tabled after data := by
  change Tabled after (PackageModel.appendMissing after data [])
  refine tabled.extend extends_ (fun row member => ?_) fun item member => ?_
  · cases member
  · obtain ⟨old, inside, same⟩ := uuids item member
    exact .inl (same ▸ tabled.complete old inside)

theorem empty : Tabled .new [] := by
  refine ⟨fun row member => ?_, List.nodup_nil, fun item member => ?_⟩
  · cases member
  · cases member

theorem filled (package : IMFPackage) :
    Tabled package (PackageModel.appendMissing package [] (PackageModel.assetRows package)) := by
  obtain ⟨once, from_, uuids⟩ :=
    @appendMissing_once package [] List.nodup_nil (PackageModel.assetRows package)
  refine ⟨fun row member => ?_, once, fun item member => ?_⟩
  · have listed := (from_ row member).resolve_left List.not_mem_nil
    exact TableRow.mem_assetRows.mp listed
  · obtain ⟨row, found⟩ := TableRow.exists_item_iff.mpr member
    have listed : row ∈ PackageModel.assetRows package := by
      rw [TableRow.mem_assetRows, found, Option.isSome_some]
    rw [uuids]
    refine .inr (List.mem_map.mpr ⟨row, listed, ?_⟩)
    rw [TableRow.uuid, found, Option.map_some]

/-- With distinct identifiers the table shows every item once. -/
theorem perm_assets (tabled : Tabled package data)
    (distinct : (package.assets.map IMFPackageItem.uuid).Nodup) :
    (data.filterMap (TableRow.item package)).Perm package.assets := by
  have shown : (data.filterMap (TableRow.item package)).map (fun item => some item.uuid) =
      data.map (TableRow.uuid package) := by
    rw [List.map_filterMap]
    have each : ∀ row ∈ data, ((row.item package).map fun item => some item.uuid) =
        some (row.uuid package) := by
      intro row member
      obtain ⟨item, found⟩ := Option.isSome_iff_exists.mp (tabled.present row member)
      rw [TableRow.uuid, found, Option.map_some, Option.map_some]
    rw [List.filterMap_congr each]
    exact congrFun List.filterMap_eq_map data
  have nodup := tabled.once
  rw [← shown] at nodup
  refine (List.perm_ext_iff_of_nodup (List.Nodup.of_map _ nodup) (List.Nodup.of_map _ distinct)).mpr ?_
  intro item
  constructor
  · intro member
    obtain ⟨row, -, found⟩ := List.mem_filterMap.mp member
    exact TableRow.exists_item_iff.mp ⟨row, found⟩
  · intro member
    have listed := tabled.complete item member
    rw [← shown] at listed
    obtain ⟨other, inside, same⟩ := List.mem_map.mp listed
    obtain ⟨row, -, found⟩ := List.mem_filterMap.mp inside
    have otherMember := TableRow.exists_item_iff.mp ⟨row, found⟩
    have own := List.inj_on_of_nodup_map distinct otherMember member (Option.some.inj same)
    exact own ▸ inside

end Tabled

end Imflib.View
