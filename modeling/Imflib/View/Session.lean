import Imflib.View.EditRuns
import Imflib.View.PackageInvariant
import Imflib.View.PackageTable

/-! A session with the program: tracks are added, playlists are made, shown and edited, and the
package is saved, in any order. -/

namespace Imflib.View

open Imflib.Package

/-- The package, its table, and the timeline. The playlist that is shown is one of the package. -/
structure Session where
  working : WorkingPackage
  data : List TableRow
  sequenceView : CPLSequenceView
  shown : Option Nat

namespace Session

variable (session : Session)

def compositionPlaylistDoubleClick (index : Nat) (playlist : IMFCompositionPlaylist) : Session :=
  { session with
    sequenceView := session.sequenceView.compositionPlaylistChanged playlist
    shown := some index }

def tableViewRowSelectedDoubleClick (row : Nat) : Session :=
  match session.data[row]? with
  | some (.playlist index) =>
      match session.working.package.compositionPlaylists[index]? with
      | some playlist => session.compositionPlaylistDoubleClick index playlist
      | none => session
  | _ => session

def newFile : Session :=
  { session with
    working := { session.working with package := .new }
    data := []
    shown := none }

def addTrackFile (fileName : String) : Session :=
  if fileName = "" ∨ session.working.package.hasTrackFile fileName = true then session
  else match session.working.package.parseAndAddTrack session.working.disk fileName with
    | .ok package =>
        { session with
          working := { session.working with package := package }
          data := PackageModel.appendMissing package session.data (PackageModel.trackRows package) }
    | .error _ => session

def newCompositionPlaylist (frame madeUUID : String) : Option Session :=
  let working := session.working
  if working.package.location = "" ∧ working.package.name = "" then some session
  else if frame = "" then some session
  else match RationalNumber.fromIMFString frame with
    | .error _ => none
    | .ok er =>
        if er.denum = 0 then some session
        else
          let path := working.package.pathOf ("CPL_" ++ madeUUID ++ ".xml")
          let newPlaylist := { IMFCompositionPlaylist.new madeUUID path with editRate := er }
          let index := working.package.compositionPlaylists.length
          some ({ session with
            working := { working with package := working.package.addCompositionPlaylist newPlaylist }
            data := PackageModel.appendItem session.data (.playlist index)
            }.compositionPlaylistDoubleClick index newPlaylist)

def edit (action : Action) : Option Session :=
  match session.shown with
  | none => none
  | some index => (session.sequenceView.perform action).map fun view =>
      { session with
        working :=
          { session.working with
            package :=
              { session.working.package with
                compositionPlaylists :=
                  session.working.package.compositionPlaylists.set index view.compositionPlaylist } }
        sequenceView := view }

def saveFile (fileSize : File → Nat) (directory name madeUUID : String) (refused : Refusals) :
    Option Session :=
  (View.saveFile session.working fileSize directory name madeUUID refused).map fun working =>
    { session with working := working }

/-- A package that cannot be loaded is replaced by a new one, unless the program ends. -/
def openFile (directory : String) : Option Session :=
  match IMFPackage.load session.working.disk directory with
  | .ok package =>
      let opened :=
        { session with
          working := { session.working with package := package }
          data := PackageModel.appendMissing package [] (PackageModel.assetRows package)
          shown := none }
      match package.compositionPlaylists with
      | [] => some opened
      | playlist :: _ => some (opened.compositionPlaylistDoubleClick 0 playlist)
  | .error (.packageException _) => some session.newFile
  | .error _ => none

end Session

inductive SessionAction where
  | newFile
  | addTrackFile (fileName : String)
  | newCompositionPlaylist (frame madeUUID : String)
  | selectRow (row : Nat)
  | edit (action : Action)
  | saveFile (directory name madeUUID : String) (refused : Refusals)

def SessionAction.madeUUID : SessionAction → Option String
  | .newCompositionPlaylist _ madeUUID => some madeUUID
  | .saveFile _ _ madeUUID _ => some madeUUID
  | _ => none

namespace Session

/-- The timeline is edited with tracks that are dragged from the table. -/
def Enabled (session : Session) : SessionAction → Prop
  | .edit action => session.sequenceView.Enabled action ∧
      ∀ drop ∈ action.dropped, ∃ row ∈ session.data,
        row.track session.working.package = some drop.1
  | action => ∀ uuid ∈ action.madeUUID, FreshUUID session.working uuid

def perform (fileSize : File → Nat) (session : Session) : SessionAction → Option Session
  | .newFile => some session.newFile
  | .addTrackFile fileName => some (session.addTrackFile fileName)
  | .newCompositionPlaylist frame madeUUID => session.newCompositionPlaylist frame madeUUID
  | .selectRow row => some (session.tableViewRowSelectedDoubleClick row)
  | .edit action => session.edit action
  | .saveFile directory name madeUUID refused =>
      session.saveFile fileSize directory name madeUUID refused

def Step (fileSize : File → Nat) (session : Session) (action : SessionAction) (next : Session) :
    Prop :=
  session.Enabled action ∧ session.perform fileSize action = some next

/-- Nothing is in the package yet, whatever files there are. -/
def Started (session : Session) : Prop :=
  session.working.package = .new ∧ session.data = [] ∧ session.shown = none

end Session

end Imflib.View
