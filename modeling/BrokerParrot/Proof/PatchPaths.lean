import BrokerParrot.Dispatcher
import BrokerParrot.Lib.DirPath

/-!
# Where the files of a finished patch are written

The paths are values that node code returned, and the only check on them is that they begin with the
text of the run directory. That holds for a sibling directory whose name goes on after it, and it
says nothing about the parent segments that follow. What is needed is that the destination comes by
the run directory at the end of a segment and from there on has more names than parent segments.
-/

namespace BrokerParrot

open DirPath (Move)

variable {newPath oldPath : String}

/-! ### Absolute paths -/

def pathMove (segment : List Char) : Move (List Char) :=
  if segment = [] ∨ segment = ['.'] then
    .stay
  else if segment = ['.', '.'] then
    .up
  else
    .into segment

def pathMoves (path : String) : List (Move (List Char)) := (path.toList.splitOn '/').map pathMove

def resolved (path : String) : List (List Char) := DirPath.walk [] (pathMoves path)

def StrictlyInside (path dir : String) : Prop :=
  resolved dir <:+ resolved path ∧ resolved path ≠ resolved dir

instance (path dir : String) : Decidable (StrictlyInside path dir) :=
  inferInstanceAs (Decidable (_ ∧ _))

def LeadsBelow (path dir : String) : Prop :=
  ∃ there on, pathMoves path = there ++ on ∧ DirPath.walk [] there = resolved dir ∧
    DirPath.Descends on

theorem strictlyInside_iff (path dir : String) : StrictlyInside path dir ↔ LeadsBelow path dir :=
  DirPath.below_iff

/-! ### The copies -/

def basename (path : String) : List Char := (path.toList.splitOn '/').getLast?.getD []

def opensAsFile (path : String) : Bool :=
  match pathMove (basename path) with
  | .into _ => true
  | _ => false

def copyTarget (isDir : Bool) (new old : String) : String :=
  if isDir then
    if old.toList.getLast? = some '/' then
      old ++ String.ofList (basename new)
    else
      old ++ "/" ++ String.ofList (basename new)
  else
    old

/-- The files that a finished patch writes. Which destinations are directories is for the file
system to say, at the time of each copy. -/
def patchWrites (host : Host) (isDir : String → String → Bool) (outDir : String)
    (new old : Context) : List String :=
  ((patchCopies host outDir new old).filter fun copy => opensAsFile copy.1).map fun copy =>
    copyTarget (isDir copy.1 copy.2) copy.1 copy.2

/-- Under some key the patch has one path and the node it re-ran has another, both begin with the
text of the run directory, and the first one is a file. -/
structure Copied (host : Host) (outDir : String) (new old : Context) (newPath oldPath : String) :
    Prop where
  shared : ∃ key, (key, .str newPath) ∈ new ∧ OrdDict.lookupIn old key = some (.str oldPath)
  differ : newPath ≠ oldPath
  dir : outDir ≠ ""
  newBegins : outDir.toList <+: newPath.toList
  oldBegins : outDir.toList <+: oldPath.toList
  file : host.isFile newPath = true

variable {host : Host} {isDir : String → String → Bool} {outDir : String} {new old : Context}

theorem mem_patchCopies_iff :
    (newPath, oldPath) ∈ patchCopies host outDir new old ↔
      Copied host outDir new old newPath oldPath := by
  unfold patchCopies
  rw [List.mem_filterMap]
  constructor
  · rintro ⟨⟨key, value⟩, hmem, hcopy⟩
    dsimp only at hcopy
    split at hcopy
    · next newText oldText hlookup =>
      obtain ⟨⟨hdiffer, hdir, hnew, hold, hfile⟩, hpair⟩ := Option.ite_none_right_eq_some.mp hcopy
      cases hpair
      exact ⟨⟨key, hmem, hlookup⟩, hdiffer, hdir, List.isPrefixOf_iff_prefix.mp hnew,
        List.isPrefixOf_iff_prefix.mp hold, hfile⟩
    · cases hcopy
  · rintro ⟨⟨key, hmem, hlookup⟩, hdiffer, hdir, hnew, hold, hfile⟩
    refine ⟨(key, .str newPath), hmem, ?_⟩
    rw [hlookup]
    exact if_pos ⟨hdiffer, hdir, List.isPrefixOf_iff_prefix.mpr hnew,
      List.isPrefixOf_iff_prefix.mpr hold, hfile⟩

theorem Copied.exists_rest (hcopied : Copied host outDir new old newPath oldPath) :
    ∃ rest, oldPath = outDir ++ rest := by
  obtain ⟨rest, hrest⟩ := hcopied.oldBegins
  refine ⟨String.ofList rest, String.ext ?_⟩
  simp [← hrest]

theorem patch_writes_inside_iff (host : Host) (isDir : String → String → Bool) (outDir : String)
    (new old : Context) :
    (∀ path ∈ patchWrites host isDir outDir new old, StrictlyInside path outDir) ↔
      ∀ newPath rest, Copied host outDir new old newPath (outDir ++ rest) →
        opensAsFile newPath = true →
          LeadsBelow (copyTarget (isDir newPath (outDir ++ rest)) newPath (outDir ++ rest))
            outDir := by
  unfold patchWrites
  simp only [List.forall_mem_map, List.mem_filter, strictlyInside_iff]
  constructor
  · intro hinside newPath rest hcopied hopens
    exact hinside (newPath, outDir ++ rest) ⟨mem_patchCopies_iff.mpr hcopied, hopens⟩
  · rintro hbelow ⟨newPath, oldPath⟩ ⟨hmem, hopens⟩
    have hcopied := mem_patchCopies_iff.mp hmem
    obtain ⟨rest, rfl⟩ := hcopied.exists_rest
    exact hbelow newPath rest hcopied hopens

def anyFileHost : Host where
  loadWorkflow := fun _ => .ok ⟨[]⟩
  pipelineSchema := fun _ => .ok ⟨[]⟩
  resolveRef := fun value _ => .ok value
  isFile := fun _ => true

/-- The patch of one run overwrites a file of another one: the directory of run `r10` begins with
the text of that of run `r1`, and parent segments lead out of any directory. -/
theorem patch_writes_elsewhere :
    let writes (old : String) := patchWrites anyFileHost (fun _ _ => false) "/out/r1"
      [("image", .str "/out/r1/patch/b.png")] [("image", .str old)]
    writes "/out/r10/a.png" = ["/out/r10/a.png"] ∧ ¬ StrictlyInside "/out/r10/a.png" "/out/r1" ∧
      writes "/out/r1/../r2/a.png" = ["/out/r1/../r2/a.png"] ∧
      ¬ StrictlyInside "/out/r1/../r2/a.png" "/out/r1" := by
  decide +kernel

end BrokerParrot
