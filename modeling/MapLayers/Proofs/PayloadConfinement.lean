import MapLayers.Proofs.CompileRuns
import MapLayers.Proofs.TreeWalks
import MapLayers.Proofs.Values

/-!
# Where payloads are read

The path of a payload is made from the id of its dataset. An id that stays below the directory of payloads
is looked up nowhere else, so files outside of the directory make no difference to it. Nothing keeps an id
from leading out of the directory though, by parts that climb or by a slash at its start. The trees of files
have no symbolic links; a link inside the directory would be followed like any other name, wherever it leads.
-/

namespace MapLayers

/-- Two worlds with the same files and directories at a directory and below it. -/
structure World.AgreeBelow (a b : World) (directory : Path) : Prop where
  origin : a.directory = b.directory
  files : a.files.AgreeBelow b.files (a.directory.join directory).parts

theorem World.AgreeBelow.view_eq {a b : World} {directory p : Path} (h : a.AgreeBelow b directory)
    (hrelative : p.isAbsolute = false) (hstays : Path.staysBelow 0 p.parts = true) :
    a.view (directory.join p) = b.view (directory.join p) := by
  unfold World.view
  rw [← h.origin, Path.join_join _ _ hrelative]
  exact h.files.look_eq hrelative hstays

namespace Payload

/-- The id makes paths that stay below the directory of payloads. -/
def staysInside (id : String) : Bool :=
  suffixes.all fun suffix =>
    !(Path.ofText (id ++ suffix)).isAbsolute && Path.staysBelow 0 (Path.ofText (id ++ suffix)).parts

/-- The entry has its data, or an id that stays inside. -/
def entryStaysInside : Json → Bool
  | .object fields =>
    !(Json.fieldOf fields "data").isNull || staysInside (Json.fieldOf fields "id").display
  | _ => true

variable {a b : World} {directory : Path}

theorem view_candidates (h : a.AgreeBelow b directory) {id : String} (hid : staysInside id = true) :
    ∀ p ∈ candidates directory id, a.view p = b.view p := by
  intro p hp
  obtain ⟨suffix, hsuffix, rfl⟩ := List.mem_map.mp hp
  have hpath := List.all_eq_true.mp hid suffix hsuffix
  simp only [Bool.and_eq_true, Bool.not_eq_true'] at hpath
  exact h.view_eq hpath.1 hpath.2

theorem firstThere_congr {first second : View} {paths : List Path}
    (h : ∀ p ∈ paths, first p = second p) : first.firstThere paths = second.firstThere paths := by
  induction paths with
  | nil => rfl
  | cons p rest ih =>
    obtain ⟨hp, hrest⟩ := List.forall_mem_cons.mp h
    rw [View.firstThere, View.firstThere, View.isThere, View.isThere, hp, ih hrest]

theorem mem_of_firstThere {view : View} {paths : List Path} {p : Path}
    (h : view.firstThere paths = .ok (some p)) : p ∈ paths := by
  induction paths with
  | nil => simp [View.firstThere] at h
  | cons first rest ih =>
    rw [View.firstThere, Result.bind_eq_ok_iff] at h
    obtain ⟨there, -, h⟩ := h
    cases there with
    | true =>
      obtain rfl : first = p := Option.some.inj (Except.ok.inj h)
      exact List.mem_cons_self
    | false => exact List.mem_cons_of_mem _ (ih h)

section

variable [Platform]

theorem attachedEntry_congr (h : a.AgreeBelow b directory) {entry : Json}
    (hentry : entryStaysInside entry = true) :
    a.view.attachedEntry directory entry = b.view.attachedEntry directory entry := by
  cases entry with
  | object fields =>
    unfold View.attachedEntry
    dsimp only
    split
    · rfl
    · next hdata =>
      rw [entryStaysInside, Bool.or_eq_true] at hentry
      have hviews := view_candidates h (hentry.resolve_left hdata)
      rw [← firstThere_congr hviews]
      cases hfirst : a.view.firstThere
          (candidates directory (Json.fieldOf fields "id").display) with
      | error fault => rfl
      | ok found =>
        cases found with
        | none => rfl
        | some p =>
          have hp := hviews p (mem_of_firstThere hfirst)
          have hread : a.view.readJson p = b.view.readJson p := by
            rw [View.readJson, View.readJson, View.readText, View.readText, hp]
          simp only [Result.ok_bind, hread]
  | _ => rfl

/-- If no id leads out of the directory of payloads, then files outside of it make no difference: the
document with its payloads, or the fault of a payload, is the same. -/
theorem attach_confined {document : Json.Fields} {directory : Option Path}
    (hagree : ∀ d ∈ directory, a.AgreeBelow b d)
    (hids : ∀ entry ∈ (Json.fieldOf document "datasets").itemsOrNone, entryStaysInside entry = true) :
    (Session.run (attach document directory) a).1 =
      (Session.run (attach document directory) b).1 := by
  have hattach := observes_attach document directory
  rw [hattach.result, hattach.result]
  unfold View.attached
  cases directory with
  | none => rfl
  | some directory =>
    generalize Json.fieldOf document "datasets" = datasets at hids
    cases datasets with
    | list entries =>
      have hentries : entries.mapM (a.view.attachedEntry directory) =
          entries.mapM (b.view.attachedEntry directory) :=
        Result.mapM_congr fun entry hentry =>
          attachedEntry_congr (hagree directory rfl) (hids entry hentry)
      dsimp only
      rw [hentries]
    | _ => rfl

end

def payloadWorld (outside : Option String) : World where
  files := ⟨[(["data"], .directory), (["data", "sub"], .directory),
    (["data", "cities.json"], .file "[]")] ++ outside.toList.map fun text => (["b.json"], .file text)⟩
  directory := ⟨.slash, []⟩
  verbose := false
  log := []

def documentWithId (id : String) : Json.Fields :=
  [("datasets", .list [.object [("id", .text id)]])]

def anyData : Result Json.Fields → Bool
  | .ok fields => (Json.fieldOf fields "datasets").itemsOrNone.any fun entry =>
    !(Json.fieldOf entry.fieldsOrNone "data").isNull
  | .error _ => false

theorem payloadWorld_agree (outside : Option String) :
    (payloadWorld outside).AgreeBelow (payloadWorld none) (Path.ofText "data") := by
  refine ⟨rfl, fun location => ?_⟩
  have hplace (other : Option String) : (payloadWorld other).files.place ["data"] = .ok ["data"] := by
    rfl
  show (payloadWorld outside).files.lookBelow ["data"] location =
    (payloadWorld none).files.lookBelow ["data"] location
  rw [FileTree.lookBelow, FileTree.lookBelow, hplace, hplace]
  show (payloadWorld outside).files.found _ = (payloadWorld none).files.found _
  rw [FileTree.found_eq_iff]
  cases outside <;> simp [payloadWorld, FileTree.node?, Entries.get?]

def attachedIn (world : World) (id : String) : Result Json.Fields :=
  (Session.run (attach (documentWithId id) (some (Path.ofText "data"))) world).1

/-- The id climbs within the directory, and finds the payload that is there. -/
theorem attach_confined_climbing :
    (∀ d ∈ some (Path.ofText "data"), (payloadWorld (some "[]")).AgreeBelow (payloadWorld none) d) ∧
    (∀ entry ∈ (Json.fieldOf (documentWithId "sub/../cities") "datasets").itemsOrNone,
      entryStaysInside entry = true) ∧
    anyData (attachedIn (payloadWorld none) "sub/../cities") = true ∧
    attachedIn (payloadWorld (some "[]")) "sub/../cities" =
      attachedIn (payloadWorld none) "sub/../cities" := by
  have hagree : ∀ d ∈ some (Path.ofText "data"),
      (payloadWorld (some "[]")).AgreeBelow (payloadWorld none) d := by
    intro d hd
    rw [← Option.some.inj hd]
    exact payloadWorld_agree _
  have hids : ∀ entry ∈ (Json.fieldOf (documentWithId "sub/../cities") "datasets").itemsOrNone,
      entryStaysInside entry = true := by decide
  exact ⟨hagree, hids, by decide, attach_confined hagree hids⟩

/-- An id that climbs out of the directory, or starts at the root, finds what lies outside. -/
theorem leaving_ids_see_outside :
    (payloadWorld (some "[]")).AgreeBelow (payloadWorld none) (Path.ofText "data") ∧
    attachedIn (payloadWorld (some "[]")) "../b" ≠ attachedIn (payloadWorld none) "../b" ∧
    attachedIn (payloadWorld (some "[]")) "/b" ≠ attachedIn (payloadWorld none) "/b" := by
  refine ⟨payloadWorld_agree _, fun hsame => ?_, fun hsame => ?_⟩
  · have hdata := congrArg anyData hsame
    exact absurd hdata (by decide)
  · have hdata := congrArg anyData hsame
    exact absurd hdata (by decide)

end Payload

end MapLayers
