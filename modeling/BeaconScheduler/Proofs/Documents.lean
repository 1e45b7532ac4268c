import BeaconScheduler.Proofs.Loading
import BeaconScheduler.Proofs.Reading

/-!
# How documents load

A document of the right shape is looked through table by table for keys that nobody knows,
and what it states is validated after that.  `document_loads` says which documents load, as
which configuration, and which of several faults in a document is reported: the first one in
the order of the version, the tables (`tables`) and the checks of validation.
-/

set_option autoImplicit false

namespace BeaconScheduler.Config

open Counter Toml Toml.Decoder

variable {list : List (Place × List String)} {keys sorted : List String} {error : LoadError}
  {draft : Draft} {config : Config} {parse : String → Option Entries} {text : String}
  {root : Entries}

/-! ## Unknown keys -/

theorem pairwise_sortKeys (keys : List String) : (sortKeys keys).Pairwise (· ≤ ·) := by
  have pairwise : (sortKeys keys).Pairwise fun a b => decide (a ≤ b) = true := by
    apply Sorting.pairwise_sort
    · intro a b c first second
      simp only [decide_eq_true_eq] at *
      exact String.le_trans first second
    · intro a b above
      simp only [decide_eq_true_eq, decide_eq_false_iff_not] at *
      exact (String.le_total a b).resolve_left above
  simpa using pairwise

theorem sortKeys_eq_iff : sortKeys keys = sorted ↔ sorted.Perm keys ∧ sorted.Pairwise (· ≤ ·) := by
  have perm : (sortKeys keys).Perm keys := Sorting.sort_perm _ keys
  constructor
  · rintro rfl
    exact ⟨perm, pairwise_sortKeys keys⟩
  · rintro ⟨permSorted, inOrder⟩
    apply List.Perm.eq_of_pairwise _ (pairwise_sortKeys keys) inOrder (perm.trans permSorted.symm)
    intro a b _ _ below above
    exact String.le_antisymm below above

def refuseAll : List (Place × List String) → Except LoadError Unit
  | [] => .ok ()
  | (place, keys) :: rest => do
      refuseUnknown place keys
      refuseAll rest

theorem refuseAll_append (first second : List (Place × List String)) :
    refuseAll (first ++ second) = refuseAll first >>= fun _ => refuseAll second := by
  induction first with
  | nil => rfl
  | cons p rest ih =>
      rw [List.cons_append, refuseAll, refuseAll, ih]
      cases refuseUnknown p.1 p.2 with
      | error _ => rfl
      | ok _ => rfl

theorem refuseUnknownIn_eq {α : Type} (place : Nat → Place) (unknown : α → List String)
    (index : Nat) (as : List α) :
    refuseUnknownIn place unknown index as =
      refuseAll ((as.zipIdx index).map fun p => (place p.2, unknown p.1)) := by
  induction as generalizing index with
  | nil => rfl
  | cons a rest ih =>
      rw [refuseUnknownIn, ih]
      rfl

theorem refuseAll_eq_ok_iff : refuseAll list = .ok () ↔ ∀ p ∈ list, p.2 = [] := by
  induction list with
  | nil => simp [refuseAll]
  | cons p rest ih =>
      rw [refuseAll, List.forall_mem_cons, ← ih, refuseUnknown]
      by_cases known : p.2 = []
      · simp [known]
      · simp [known]

theorem refuseAll_eq_error_iff :
    refuseAll list = .error error ↔
      ∃ before place keys after, list = before ++ (place, keys) :: after ∧
        (∀ p ∈ before, p.2 = []) ∧ keys ≠ [] ∧ error = .unknownKeys place (sortKeys keys) := by
  constructor
  · intro refused
    induction list with
    | nil => cases refused
    | cons p rest ih =>
        rw [refuseAll, refuseUnknown] at refused
        by_cases known : p.2 = []
        · simp only [known, List.isEmpty_nil, if_true, ok_bind] at refused
          obtain ⟨before, place, keys, after, rfl, others, first, report⟩ := ih refused
          exact ⟨p :: before, place, keys, after, rfl, List.forall_mem_cons.mpr ⟨known, others⟩,
            first, report⟩
        · simp only [List.isEmpty_iff, known, if_false, error_bind, Except.error.injEq] at refused
          exact ⟨[], p.1, p.2, rest, rfl, nofun, known, refused.symm⟩
  · rintro ⟨before, place, keys, after, rfl, others, unknown, rfl⟩
    rw [refuseAll_append, refuseAll_eq_ok_iff.mpr others, ok_bind, refuseAll, refuseUnknown]
    simp [unknown]

namespace Draft

theorem check_eq (draft : Draft) :
    draft.check = if draft.version = supportedVersion then refuseAll draft.unknowns
      else .error (.version draft.version) := by
  rw [check]
  by_cases supported : draft.version = supportedVersion
  · rw [if_pos supported, if_pos supported]
    simp only [unknowns, refuseAll_append, ← refuseUnknownIn_eq, refuseAll, bind_assoc, ok_bind]
  · rw [if_neg supported, if_neg supported]
    rfl

theorem check_eq_ok_iff :
    draft.check = .ok () ↔ draft.version = supportedVersion ∧ ∀ p ∈ draft.unknowns, p.2 = [] := by
  rw [check_eq, ← refuseAll_eq_ok_iff]
  split_ifs with supported
  · simp [supported]
  · simp [supported]

theorem check_eq_error_iff :
    draft.check = .error error ↔
      (draft.version ≠ supportedVersion ∧ error = .version draft.version) ∨
        (draft.version = supportedVersion ∧ refuseAll draft.unknowns = .error error) := by
  rw [check_eq]
  split_ifs with supported
  · simp [supported]
  · simp [supported, eq_comm]

theorem load_eq_error_iff :
    draft.load = .ok (.error error) ↔
      draft.check = .error error ∨
        (draft.check = .ok () ∧ ∃ problem, draft.complete.validate = .ok (.error problem) ∧
          error = .invalid problem) := by
  rw [load]
  cases draft.check with
  | error _ => simp
  | ok _ =>
      simp only [reduceCtorEq, false_or, true_and, bind_eq_ok_iff]
      constructor
      · rintro ⟨outcome, validated, last⟩
        cases outcome with
        | error problem =>
            cases last
            exact ⟨problem, validated, rfl⟩
        | ok _ => cases last
      · rintro ⟨problem, refused, rfl⟩
        exact ⟨_, refused, rfl⟩

end Draft

/-! ## The verdict on a document -/

/-- What is reported of a document that states no valid configuration of the supported version:
the first fault, and of unknown keys all that the table has. -/
inductive Rejects (root : Entries) : LoadError → Prop where
  | version {found : String} (stated : root.read? "config_version" string = some found)
      (unsupported : found ≠ "0.1") : Rejects root (.version found)
  | unknownKeys {before after : List (Place × Entries)} {place : Place} {entries : Entries}
      {keys : List String} (supported : root.read? "config_version" string = some "0.1")
      (first : tables root = before ++ (place, entries) :: after)
      (known : ∀ table ∈ before, table.1.unknown table.2 = [])
      (unknown : place.unknown entries ≠ []) (all : keys.Perm (place.unknown entries))
      (inOrder : keys.Pairwise (· ≤ ·)) : Rejects root (.unknownKeys place keys)
  | invalid {config : Config} {problem : Problem}
      (supported : root.read? "config_version" string = some "0.1")
      (known : ∀ table ∈ tables root, table.1.unknown table.2 = [])
      (stated : config.StatedIn root) (refused : config.validate = .ok (.error problem)) :
      Rejects root (.invalid problem)

theorem known_iff {tables : List (Place × Entries)} :
    (∀ p ∈ tables.map fun table => (table.1, table.1.unknown table.2), p.2 = []) ↔
      ∀ table ∈ tables, table.1.unknown table.2 = [] :=
  List.forall_mem_map

theorem refuseAll_tables_iff {tables : List (Place × Entries)} :
    refuseAll (tables.map fun table => (table.1, table.1.unknown table.2)) = .error error ↔
      ∃ before place entries after keys, tables = before ++ (place, entries) :: after ∧
        (∀ table ∈ before, table.1.unknown table.2 = []) ∧ place.unknown entries ≠ [] ∧
        keys.Perm (place.unknown entries) ∧ keys.Pairwise (· ≤ ·) ∧
        error = .unknownKeys place keys := by
  rw [refuseAll_eq_error_iff]
  constructor
  · rintro ⟨before, place, unknown, after, split, known, some, rfl⟩
    obtain ⟨own, rest, rfl, rfl, others⟩ := List.map_eq_append_iff.mp split
    obtain ⟨⟨_, entries⟩, later, rfl, here, rfl⟩ := List.map_eq_cons_iff.mp others
    obtain ⟨rfl, rfl⟩ := Prod.mk.inj here
    obtain ⟨all, inOrder⟩ := sortKeys_eq_iff.mp rfl
    exact ⟨own, _, entries, later, _, rfl, known_iff.mp known, some, all, inOrder, rfl⟩
  · rintro ⟨before, place, entries, after, keys, rfl, known, some, all, inOrder, rfl⟩
    rw [List.map_append, List.map_cons, ← sortKeys_eq_iff.mpr ⟨all, inOrder⟩]
    exact ⟨_, _, _, _, rfl, known_iff.mpr known, some, rfl⟩

theorem check_accepts_iff (shaped : Draft.ofRoot root = .ok draft) :
    draft.check = .ok () ↔ root.read? "config_version" string = some "0.1" ∧
      ∀ table ∈ tables root, table.1.unknown table.2 = [] := by
  obtain ⟨version, _, unknowns⟩ := Draft.ofRoot_reads shaped
  rw [Draft.check_eq_ok_iff, unknowns, known_iff, version, Option.some.injEq]
  rfl

theorem load_rejects_iff (shaped : Draft.ofRoot root = .ok draft) :
    draft.load = .ok (.error error) ↔ Rejects root error := by
  obtain ⟨version, stated, unknowns⟩ := Draft.ofRoot_reads shaped
  have supported_iff : draft.version = supportedVersion ↔
      root.read? "config_version" string = some "0.1" := by
    rw [version, Option.some.injEq]
    rfl
  rw [Draft.load_eq_error_iff, Draft.check_eq_error_iff, check_accepts_iff shaped, unknowns,
    refuseAll_tables_iff]
  constructor
  · rintro ((⟨unsupported, rfl⟩ | ⟨supported, _, _, _, _, _, first, known, some, all, inOrder, rfl⟩) |
      ⟨⟨supported, known⟩, problem, refused, rfl⟩)
    · exact .version version unsupported
    · exact .unknownKeys (supported_iff.mp supported) first known some all inOrder
    · exact .invalid supported known stated refused
  · intro rejects
    cases rejects with
    | version other unsupported =>
        obtain rfl := Option.some.inj (version.symm.trans other)
        exact .inl (.inl ⟨unsupported, rfl⟩)
    | unknownKeys supported first known some all inOrder =>
        exact .inl (.inr ⟨supported_iff.mpr supported, _, _, _, _, _, first, known, some, all,
          inOrder, rfl⟩)
    | invalid supported known other refused =>
        obtain rfl := stated_once stated other
        exact .inr ⟨⟨supported, known⟩, _, refused, rfl⟩

theorem load_accepts_iff (shaped : Draft.ofRoot root = .ok draft) :
    draft.load = .ok (.ok config) ↔
      root.read? "config_version" string = some "0.1" ∧
        (∀ table ∈ tables root, table.1.unknown table.2 = []) ∧ config.StatedIn root ∧
        config.validate = .ok (.ok ()) := by
  obtain ⟨_, stated, _⟩ := Draft.ofRoot_reads shaped
  rw [Draft.load_eq_ok_iff, check_accepts_iff shaped]
  constructor
  · rintro ⟨⟨supported, known⟩, rfl, valid⟩
    exact ⟨supported, known, stated, valid⟩
  · rintro ⟨supported, known, other, valid⟩
    exact ⟨⟨supported, known⟩, stated_once stated other, valid⟩

theorem exists_draft (text : String) (beacon : Beacon)
    (outcome : Except Fault (Except LoadError Config))
    (read : ((document? text).bind fun root => (Draft.ofRoot root).toOption).map
      (fun draft => (draft.complete.beacon, draft.load)) = some (beacon, outcome)) :
    ∃ root draft, document? text = some root ∧ Draft.ofRoot root = .ok draft ∧
      draft.complete.beacon = beacon ∧ ofText text = outcome := by
  obtain ⟨draft, found, parts⟩ := Option.map_eq_some_iff.mp read
  obtain ⟨root, parsed, shaped⟩ := Option.bind_eq_some_iff.mp found
  have shaped := toOption_eq_some_iff.mp shaped
  obtain ⟨own, loaded⟩ := Prod.mk.inj parts
  have described : reader document? text = .ok draft := reader_eq_ok_iff.mpr ⟨root, parsed, shaped⟩
  exact ⟨root, draft, parsed, shaped, own, (loadText_of_shaped described).trans loaded⟩

/-- Whatever the parser: a document of the right shape loads as what it states, if it is of the
supported version, has no unknown keys and states a valid configuration; else its first fault is
reported. -/
theorem document_loads (parsed : parse text = some root) (shaped : Draft.ofRoot root = .ok draft)
    (fits : draft.complete.beacon.HeaderFits) :
    draft.complete.StatedIn root ∧ Ends (loadText (reader parse) text) ∧
      (∀ config, loadText (reader parse) text = .ok (.ok config) ↔
        root.read? "config_version" string = some "0.1" ∧
          (∀ table ∈ tables root, table.1.unknown table.2 = []) ∧ config.StatedIn root ∧
          config.validate = .ok (.ok ())) ∧
      ∀ error, loadText (reader parse) text = .ok (.error error) ↔ Rejects root error := by
  obtain ⟨_, stated, _⟩ := Draft.ofRoot_reads shaped
  rw [loadText_of_shaped (reader_eq_ok_iff.mpr ⟨root, parsed, shaped⟩)]
  refine ⟨stated, ?_, fun config => ?_, fun error => load_rejects_iff shaped⟩
  · exact Draft.load_ends fun _ => fits
  · exact load_accepts_iff shaped

/-- A static that leaves the number of its blocks open. -/
def plainDocument : String :=
  "config_version='0.1'\n[[static_allocation]]\nid=9\nkind='Cbap'\nsource_aid=0\n" ++
  "dest_aid=7\nstart_us=50\nblock_duration_us=40\n"

/-- Unknown keys in two tables, and no blocks allowed. -/
def faultyDocument : String :=
  "config_version='0.1'\n[scenario]\nseeds=1\n[scheduler]\npolicy='Basic'\nz=1\na=1\n" ++
  "max_blocks=0\n"

theorem documents_read :
    (∃ root draft, document? plainDocument = some root ∧ Draft.ofRoot root = .ok draft ∧
      draft.complete.beacon.HeaderFits ∧ ∃ config, config.StatedIn root ∧
        config.statics = [⟨⟨9, 0, 7⟩, .cbap, 50, 40, 1⟩] ∧
        ofText plainDocument = .ok (.ok config)) ∧
    ∃ root draft, document? faultyDocument = some root ∧ Draft.ofRoot root = .ok draft ∧
      draft.complete.beacon.HeaderFits ∧ Rejects root (.unknownKeys .scheduler ["a", "z"]) := by
  have fits : ({} : Beacon).HeaderFits := by
    rw [Beacon.HeaderFits]
    decide
  constructor
  · obtain ⟨root, draft, parsed, shaped, beacon, loaded⟩ := exists_draft
      plainDocument {} (.ok (.ok { statics := [⟨⟨9, 0, 7⟩, .cbap, 50, 40, 1⟩] })) (by decide +kernel)
    rw [← beacon] at fits
    obtain ⟨_, _, loads, _⟩ := document_loads parsed shaped fits
    obtain ⟨_, _, stated, _⟩ := (loads _).mp loaded
    exact ⟨root, draft, parsed, shaped, fits, _, stated, rfl, loaded⟩
  · obtain ⟨root, draft, parsed, shaped, beacon, refused⟩ := exists_draft
      faultyDocument {} (.ok (.error (.unknownKeys .scheduler ["a", "z"]))) (by decide +kernel)
    rw [← beacon] at fits
    obtain ⟨_, _, _, rejects⟩ := document_loads parsed shaped fits
    exact ⟨root, draft, parsed, shaped, fits, (rejects _).mp refused⟩

end BeaconScheduler.Config
