import Imflib.Package.PackageXml

/-! The package view: tracks are added to the package, playlists are made in it, and it is saved. -/

namespace Imflib.View

open Imflib.Package

section Actions

variable (working : WorkingPackage)

/-- A track file that cannot be read, or that is in the package already, is not added. -/
def addTrackFile (fileName : String) : WorkingPackage :=
  if fileName = "" ∨ working.package.hasTrackFile fileName = true then working
  else match working.package.parseAndAddTrack working.disk fileName with
    | .ok package => { working with package := package }
    | .error _ => working

/-- A package without folder gets no playlists. There is no result for an edit rate that cannot be
read. -/
def newCompositionPlaylist (frame madeUUID : String) : Option WorkingPackage :=
  if working.package.location = "" ∧ working.package.name = "" then some working
  else if frame = "" then some working
  else match RationalNumber.fromIMFString frame with
    | .error _ => none
    | .ok er =>
        if er.denum = 0 then some working
        else
          let path := working.package.pathOf ("CPL_" ++ madeUUID ++ ".xml")
          let newPlaylist := { IMFCompositionPlaylist.new madeUUID path with editRate := er }
          some { working with package := working.package.addCompositionPlaylist newPlaylist }

/-- A package is given a new folder when it is saved first. The user may fail to name one. -/
def prepareSave (directory name madeUUID : String) : Option WorkingPackage :=
  if working.package.location = "" ∨ working.package.name = "" then
    if directory = "" ∨ name = "" then none
    else
      let finalLocation := directory ++ "/" ++ name
      if working.disk.directoryExists finalLocation then none
      else (working.disk.mkdir finalLocation .other).map fun disk =>
        { disk := disk
          package :=
            { working.package with
              location := directory
              name := name
              uuid := madeUUID } }
  else some working

variable (fileSize : File → Nat)

/-- An exception of the package is shown to the user. Any other ends the program. -/
def saveFile (directory name madeUUID : String) (refused : Refusals) : Option WorkingPackage :=
  match prepareSave working directory name madeUUID with
  | none => some working
  | some prepared =>
      match prepared.save fileSize refused with
      | ⟨saved, none⟩ => some saved
      | ⟨saved, some (.packageException _)⟩ => some saved
      | ⟨_, some _⟩ => none

end Actions

inductive PackageAction where
  | addTrackFile (fileName : String)
  | newCompositionPlaylist (frame madeUUID : String)
  | saveFile (directory name madeUUID : String) (refused : Refusals)

def PackageAction.madeUUID : PackageAction → Option String
  | .addTrackFile _ => none
  | .newCompositionPlaylist _ madeUUID => some madeUUID
  | .saveFile _ _ madeUUID _ => some madeUUID

def actOnPackage (fileSize : File → Nat) (working : WorkingPackage) :
    PackageAction → Option WorkingPackage
  | .addTrackFile fileName => some (addTrackFile working fileName)
  | .newCompositionPlaylist frame madeUUID => newCompositionPlaylist working frame madeUUID
  | .saveFile directory name madeUUID refused =>
      saveFile working fileSize directory name madeUUID refused

end Imflib.View
