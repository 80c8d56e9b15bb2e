import BrokerParrot.BoxAgent

/-!
# Which controls govern a lane

A row of `worker_controls` is addressed to a box by its label, and a lane is governed by the rows of
its own control database. The agent reads the rows of all control databases of its manifest as one
list, and takes every label that begins with the name of its box and a dash.
-/

namespace BrokerParrot

open List

namespace BoxAgent

/-! ### The desired state of a lane -/

section

variable {box : String} {lanes : List Lane} {lane : Lane}
  (hnodup : (lanes.map Lane.key).Nodup) (hmem : lane ∈ lanes)

include hnodup hmem

theorem get?_allOn : (allOn lanes).get? lane.key = some true := by
  obtain ⟨before, -, -, hview⟩ := KeyedFold.view_of_mem
    (fun desired lane => desired.insert lane.key true) Lane.key
    (fun key (desired : OrdDict String Bool) => desired.get? key)
    (fun desired _ _ hne => OrdDict.get?_insert_of_ne desired true (Ne.symm hne))
    hnodup hmem OrdDict.empty
  exact hview.trans (OrdDict.get?_insert_self _ _ _)

theorem get?_applyRow (desired : OrdDict String Bool) (row : ControlRow) :
    (applyRow box lanes desired row).get? lane.key =
      if parks box lane row then some false else desired.get? lane.key := by
  obtain ⟨before, -, hbefore, hview⟩ := KeyedFold.view_of_mem
    (fun desired lane => if parks box lane row then desired.insert lane.key false else desired)
    Lane.key (fun key (desired : OrdDict String Bool) => desired.get? key)
    (fun desired lane other hne => by
      split
      · exact OrdDict.get?_insert_of_ne desired false (Ne.symm hne)
      · rfl)
    hnodup hmem desired
  refine hview.trans ?_
  split
  · exact OrdDict.get?_insert_self _ _ _
  · exact hbefore

theorem get?_foldl_applyRow (rows : List ControlRow) (desired : OrdDict String Bool) :
    (rows.foldl (applyRow box lanes) desired).get? lane.key =
      if rows.any (parks box lane) then some false else desired.get? lane.key := by
  induction rows generalizing desired with
  | nil => rfl
  | cons row rest ih =>
    rw [foldl_cons, ih, get?_applyRow hnodup hmem, any_cons]
    cases parks box lane row <;> simp

theorem wantsOn_desiredFromControls (rows : List ControlRow) :
    wantsOn (desiredFromControls rows box lanes) lane = !rows.any (parks box lane) := by
  unfold wantsOn desiredFromControls
  rw [get?_foldl_applyRow hnodup hmem, get?_allOn hnodup hmem]
  cases rows.any (parks box lane) <;> rfl

end

/-! ### Labels -/

def AddressedTo (box label : String) : Prop :=
  label = box ∨ ∃ segment : String, '-' ∉ segment.toList ∧ label = box ++ "-" ++ segment

def Extends (long short : String) : Prop := ∃ rest : String, long = short ++ "-" ++ rest

theorem hostMatches_iff {label box : String} :
    hostMatches label box = true ↔ label = box ∨ Extends label box := by
  unfold hostMatches
  rw [Bool.or_eq_true, decide_eq_true_iff, isPrefixOf_iff_prefix]
  refine or_congr_right ⟨?_, ?_⟩
  · rintro ⟨rest, hlabel⟩
    refine ⟨String.ofList rest, String.toList_injective ?_⟩
    rw [String.toList_append, String.toList_ofList, hlabel]
  · rintro ⟨rest, rfl⟩
    exact ⟨rest.toList, String.toList_append.symm⟩

theorem extends_of_dash_append_eq {box other rest segment : List Char} (hsegment : '-' ∉ segment)
    (heq : box ++ '-' :: rest = other ++ '-' :: segment) :
    other = box ∨ ∃ more, other = box ++ '-' :: more := by
  rcases append_eq_append_iff.mp heq with ⟨more, hother, hrest⟩ | ⟨more, hbox, hrest⟩
  · cases more with
    | nil => exact Or.inl (by rw [hother, append_nil])
    | cons first more =>
      have hfirst : '-' = first := (List.cons.inj hrest).1
      exact Or.inr ⟨more, by rw [hother, ← hfirst]⟩
  · cases more with
    | nil => exact Or.inl (by rw [hbox, append_nil])
    | cons first more =>
      -- the dash after the box would lie inside the one segment after the other name
      have hinside : segment = more ++ '-' :: rest := (List.cons.inj hrest).2
      exact absurd (hinside ▸ mem_append_right _ mem_cons_self) hsegment

theorem extends_of_matches {box other label : String} (hmatch : label = box ∨ Extends label box)
    (haddressed : AddressedTo other label) (hne : other ≠ box) :
    Extends other box ∨ Extends box other := by
  rcases hmatch with rfl | ⟨rest, rfl⟩
  · rcases haddressed with heq | ⟨segment, -, heq⟩
    · exact absurd heq.symm hne
    · exact Or.inr ⟨segment, heq⟩
  · rcases haddressed with heq | ⟨segment, hsegment, heq⟩
    · exact Or.inl ⟨rest, heq.symm⟩
    · have hchars : box.toList ++ '-' :: rest.toList = other.toList ++ '-' :: segment.toList := by
        have hlists := congrArg String.toList heq
        simpa using hlists
      rcases extends_of_dash_append_eq hsegment hchars with hsame | ⟨more, hmore⟩
      · exact absurd (String.toList_injective hsame) hne
      · refine Or.inl ⟨String.ofList more, String.toList_injective ?_⟩
        simpa using hmore

/-! ### Rows that govern a lane and rows that should not -/

section

variable (manifest : Manifest) (box : String) (others : Set String) (entry : LaneEntry)
  (controls : Controls)

/-- The row is off for the queue, for this project or any, and its label is the box's name or goes
on after it with a dash. -/
structure Parks (row : ControlRow) : Prop where
  off : row.desiredState = "off"
  label : row.hostLabel = box ∨ Extends row.hostLabel box
  queue : entry.queue = row.queue
  project : row.project = "" ∨ row.project = entry.project

def Foreign (row : ControlRow) : Prop := ∃ other ∈ others, AddressedTo other row.hostLabel

def ownRows : List ControlRow := ((orNull entry.controlDsn).bind controls).getD []

def OwnParks : Prop :=
  ∃ row ∈ ownRows entry controls, ¬ Foreign others row ∧ Parks box entry row

/-- A row parks the lane that stands in another control database of the manifest, or that is
addressed to another box. -/
def StrayParks : Prop :=
  ∃ dsn ∈ manifest.dsns, ∃ row ∈ (controls dsn).getD [], Parks box entry row ∧
    (orNull entry.controlDsn ≠ some dsn ∨ Foreign others row)

def SameOwnRows (before after : Controls) : Prop :=
  ∀ row, ¬ Foreign others row → (row ∈ ownRows entry before ↔ row ∈ ownRows entry after)

def laneOn : Bool :=
  wantsOn (desiredFromControls (fetchControls manifest controls) box manifest.lanes) entry.toLane

variable {manifest box others entry controls}

theorem nodup_lanes : (manifest.lanes.map Lane.key).Nodup := by
  have hkeys : manifest.lanes.map Lane.key = manifest.entries.map fun entry => entry.key := by
    unfold Manifest.lanes
    rw [map_map]
    rfl
  rw [hkeys]
  exact manifest.nodupKeys

theorem mem_dsns_of_entry (hmem : entry ∈ manifest.entries) {dsn : String}
    (hdsn : orNull entry.controlDsn = some dsn) : dsn ∈ manifest.dsns := by
  unfold Manifest.dsns
  rw [mem_eraseDups]
  exact mem_filterMap.mpr ⟨entry, hmem, hdsn⟩

theorem parks_iff (row : ControlRow) :
    parks box entry.toLane row = true ↔ Parks box entry row := by
  unfold parks
  rw [Bool.and_eq_true, Bool.and_eq_true, hostMatches_iff, Bool.and_eq_true, Bool.or_eq_true]
  simp only [decide_eq_true_iff]
  exact ⟨fun h => ⟨h.1.1, h.1.2, h.2.1, h.2.2⟩, fun h => ⟨⟨h.off, h.label⟩, h.queue, h.project⟩⟩

theorem laneOn_iff (hmem : entry ∈ manifest.entries) :
    laneOn manifest box entry controls = true ↔
      ¬ (OwnParks box others entry controls ∨ StrayParks manifest box others entry controls) := by
  have hlane : entry.toLane ∈ manifest.lanes := mem_map_of_mem hmem
  unfold laneOn
  rw [wantsOn_desiredFromControls nodup_lanes hlane, Bool.not_eq_true', ← Bool.not_eq_true,
    any_eq_true, not_iff_not]
  simp only [parks_iff]
  constructor
  · rintro ⟨row, hrow, hparks⟩
    obtain ⟨dsn, hdsn, hrow⟩ := mem_flatMap.mp hrow
    by_cases hown : orNull entry.controlDsn = some dsn
    · by_cases hforeign : Foreign others row
      · exact Or.inr ⟨dsn, hdsn, row, hrow, hparks, Or.inr hforeign⟩
      · refine Or.inl ⟨row, ?_, hforeign, hparks⟩
        unfold ownRows
        rwa [hown]
    · exact Or.inr ⟨dsn, hdsn, row, hrow, hparks, Or.inl hown⟩
  · rintro (⟨row, hrow, -, hparks⟩ | ⟨dsn, hdsn, row, hrow, hparks, -⟩)
    · unfold ownRows at hrow
      cases hown : orNull entry.controlDsn with
      | none =>
        rw [hown] at hrow
        exact absurd hrow not_mem_nil
      | some dsn =>
        rw [hown] at hrow
        exact ⟨row, mem_flatMap.mpr ⟨dsn, mem_dsns_of_entry hmem hown, hrow⟩, hparks⟩
    · exact ⟨row, mem_flatMap.mpr ⟨dsn, hdsn, hrow⟩, hparks⟩

theorem ownParks_congr {before after : Controls}
    (hsame : SameOwnRows others entry before after) :
    OwnParks box others entry before ↔ OwnParks box others entry after := by
  constructor
  · rintro ⟨row, hrow, hown, hparks⟩
    exact ⟨row, (hsame row hown).mp hrow, hown, hparks⟩
  · rintro ⟨row, hrow, hown, hparks⟩
    exact ⟨row, (hsame row hown).mpr hrow, hown, hparks⟩

/-- With one control database, and other boxes whose names do not extend this one's or the other way
round, no row strays. -/
theorem not_strayParks_of_apart
    (hsingle : ∀ dsn ∈ manifest.dsns, orNull entry.controlDsn = some dsn)
    (hapart : ∀ other ∈ others, other ≠ box ∧ ¬ Extends other box ∧ ¬ Extends box other) :
    ¬ StrayParks manifest box others entry controls := by
  rintro ⟨dsn, hdsn, row, -, hparks, hother | ⟨other, hother, haddressed⟩⟩
  · exact hother (hsingle dsn hdsn)
  · obtain ⟨hne, hlong, hshort⟩ := hapart other hother
    exact (extends_of_matches hparks.label haddressed hne).elim hlong hshort

end

/-- **Foreign rows.** They leave the state of a lane as it was if and only if a row of its own parks
it anyway, or a stray row parks it before and after or neither time. With one control database, and
other boxes whose names do not extend this one's or the other way round, no row strays. -/
theorem foreign_rows_spare_iff (manifest : Manifest) (box : String) (others : Set String)
    (entry : LaneEntry) (hmem : entry ∈ manifest.entries) (before after : Controls)
    (hsame : SameOwnRows others entry before after) :
    (laneOn manifest box entry before = laneOn manifest box entry after ↔
      OwnParks box others entry before ∨
        (StrayParks manifest box others entry before ↔
          StrayParks manifest box others entry after)) ∧
    ((∀ dsn ∈ manifest.dsns, orNull entry.controlDsn = some dsn) →
      (∀ other ∈ others, other ≠ box ∧ ¬ Extends other box ∧ ¬ Extends box other) →
      ∀ controls, ¬ StrayParks manifest box others entry controls) := by
  refine ⟨?_, fun hsingle hapart _ => not_strayParks_of_apart hsingle hapart⟩
  rw [Bool.eq_iff_iff, laneOn_iff hmem, laneOn_iff hmem, ← ownParks_congr hsame, not_iff_not]
  by_cases hown : OwnParks box others entry before
  · exact iff_of_true (iff_of_true (Or.inl hown) (Or.inl hown)) (Or.inl hown)
  · simp [hown]

def gpuLane : LaneEntry :=
  { key := "studio-gpu", project := "studio", queue := "gpu", controlDsn := some "studio_db" }

def filmLane : LaneEntry :=
  { key := "film-cpu", project := "film", queue := "cpu", controlDsn := some "film_db" }

def twoLanes : Manifest := { entries := [gpuLane, filmLane], nodupKeys := by decide }

def onlyRow (dsn : String) (row : ControlRow) : Controls :=
  fun name => some (if name = dsn then [row] else [])

def gpuOff (label : String) : ControlRow :=
  { hostLabel := label, queue := "gpu", project := "", desiredState := "off" }

def oneDatabase : Manifest :=
  { entries := [gpuLane, { filmLane with controlDsn := some "studio_db" }], nodupKeys := by decide }

/-- A row for a lane of `box-b` leaves the lane of `box-a` on. -/
theorem foreign_rows_spare_iff_apart :
    laneOn oneDatabase "box-a" gpuLane (fun _ => some []) =
      laneOn oneDatabase "box-a" gpuLane (onlyRow "studio_db" (gpuOff "box-b-gpu")) := by
  have hsame : SameOwnRows {"box-b"} gpuLane (fun _ => some [])
      (onlyRow "studio_db" (gpuOff "box-b-gpu")) := by
    intro row hown
    refine ⟨fun hrow => absurd hrow List.not_mem_nil, fun hrow => ?_⟩
    refine absurd ⟨"box-b", rfl, Or.inr ⟨"gpu", by decide, ?_⟩⟩ hown
    rw [List.mem_singleton.mp hrow]
    rfl
  obtain ⟨hspare, hstray⟩ := foreign_rows_spare_iff oneDatabase "box-a" {"box-b"} gpuLane
    List.mem_cons_self _ _ hsame
  have hnone := hstray (by decide) (by
    rintro other rfl
    refine ⟨by decide, ?_, ?_⟩ <;>
    · rintro ⟨rest, heq⟩
      exact absurd (congrArg String.toList heq) (by simp))
  exact hspare.mpr (Or.inr (iff_of_false (hnone _) (hnone _)))

/-- A row for `box-a-extra` or its GPU lane turns the lane of `box-a` off, and so does a row in the
control database of another lane that names no project. -/
theorem foreign_rows_park_lane :
    AddressedTo "box-a-extra" "box-a-extra" ∧ AddressedTo "box-a-extra" "box-a-extra-gpu" ∧
      laneOn twoLanes "box-a" gpuLane (fun _ => some []) = true ∧
      laneOn twoLanes "box-a" gpuLane (onlyRow "studio_db" (gpuOff "box-a-extra")) = false ∧
      laneOn twoLanes "box-a" gpuLane (onlyRow "studio_db" (gpuOff "box-a-extra-gpu")) = false ∧
      laneOn twoLanes "box-a" gpuLane (onlyRow "film_db" (gpuOff "box-a")) = false :=
  ⟨Or.inl rfl, Or.inr ⟨"gpu", by decide, rfl⟩, by decide, by decide, by decide, by decide⟩

end BoxAgent

end BrokerParrot
