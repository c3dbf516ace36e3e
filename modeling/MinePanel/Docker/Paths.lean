/-
  MinePanel.Docker.Paths
  ──────────────────────
  **DATA DIRECTORIES.**

  `readDockerConfig` checks the segments of the bind source, cut at runs of `/`
  and `\`; `resolveDataDir` drops the separators at its end and appends a slash
  and the id of the server, without normalising.

    * `split` — `split(/[\\/]+/)`;
    * `readDataPaths`, `resolveDataDir` — the checks and the join;
    * `split_append` — where a cut falls between two texts;
    * `data_directory_confined` — **every source, every id**.
-/
import Mathlib.Data.List.DropRight
import MinePanel.Docker.Service

namespace MinePanel.Docker

open MinePanel.Lib.Text

/-! ## §1. The paths of the configuration. -/

/-- `[\\/]`. -/
def isSeparator (c : Char) : Bool := c == '/' || c == '\\'

/-- `split(/[\\/]+/)`, on characters: a run of separators cuts once, at its end. -/
def split : List Char → List (List Char)
  | [] => [[]]
  | c :: cs =>
      if isSeparator c then
        if cs.head?.any isSeparator then split cs else [] :: split cs
      else
        match split cs with
        | [] => [[c]]
        | segment :: segments => (c :: segment) :: segments

/-- The segments of a path. -/
def segments (path : String) : List String := (split path.toList).map String.ofList

/-- `seg === '.' || seg === '..'` for some segment. -/
def hasDotSegment (path : String) : Bool :=
  (segments path).any fun seg => seg == "." || seg == ".."

/-- The two paths of a `DockerConfig`. -/
structure DataPaths where
  mcDataPath : String
  mcDataBindSource : String
  deriving Repr, DecidableEq

/-- The first half of `readDockerConfig`, from `MC_DATA_PATH` and
`MC_DATA_BIND_SOURCE`; what follows reads other variables and only refuses more. -/
def readDataPaths (mcDataPath mcDataBindSource : Option String) : Except String DataPaths := do
  let rawMcDataPath := mcDataPath.getD "/mc-data"
  if rawMcDataPath ≠ trim rawMcDataPath then
    throw "MC_DATA_PATH must not have surrounding whitespace"
  let mcDataPath := trim rawMcDataPath
  if mcDataPath = "" then
    throw "MC_DATA_PATH is not configured"
  if !isAbsolute mcDataPath then
    throw "MC_DATA_PATH must be an absolute path"
  if hasDotSegment mcDataPath then
    throw "MC_DATA_PATH must not contain . or .. segments"
  -- the bind source is a path of the host, and may be a Windows one
  let rawBindSource := mcDataBindSource.getD mcDataPath
  if rawBindSource ≠ trim rawBindSource then
    throw "MC_DATA_BIND_SOURCE must not have surrounding whitespace"
  let mcDataBindSource := trim rawBindSource
  if mcDataBindSource = "" then
    throw "MC_DATA_BIND_SOURCE is not configured"
  if hasDotSegment mcDataBindSource then
    throw "MC_DATA_BIND_SOURCE must not contain . or .. segments"
  -- an absolute path, so the working directory does not matter
  return ⟨(resolve [] mcDataPath).text, mcDataBindSource⟩

/-- `CONTAINER_NAME_PATTERN`: `^[a-zA-Z0-9][a-zA-Z0-9_.-]{0,63}$`. -/
def isContainerName (s : String) : Bool :=
  match s.toList with
  | [] => false
  | c :: cs => isAlphanumeric c && decide (cs.length ≤ 63) &&
      cs.all fun d => isAlphanumeric d || d == '_' || d == '.' || d == '-'

/-- `replace(/[\\/]+$/, '')`. -/
def dropTrailing (path : String) : String := String.ofList (path.toList.rdropWhile isSeparator)

/-- `resolveDataDir`. -/
def resolveDataDir (mcDataBindSource serverId : String) : Except String String := do
  if !isContainerName serverId then
    throw "Invalid server id"
  return dropTrailing mcDataBindSource ++ "/" ++ serverId

/-! ## §2. Splitting. -/

theorem split_separator {c : Char} (hc : isSeparator c = true) (cs : List Char) :
    split (c :: cs) = if cs.head?.any isSeparator then split cs else [] :: split cs := by
  rw [split, if_pos hc]

theorem split_character {c : Char} (hc : isSeparator c = false) (cs : List Char) :
    split (c :: cs) = (c :: (split cs).headD []) :: (split cs).tail := by
  rw [split, if_neg (by simp [hc])]
  cases split cs <;> rfl

theorem split_ne_nil (cs : List Char) : split cs ≠ [] := by
  induction cs with
  | nil => simp [split]
  | cons c cs ih =>
      unfold split
      split
      next => split <;> simp [ih]
      next => split <;> simp

/-- A text without a separator is one segment. -/
theorem split_of_plain {cs : List Char} (h : ∀ c ∈ cs, isSeparator c = false) :
    split cs = [cs] := by
  induction cs with
  | nil => rfl
  | cons c cs ih =>
      have htail := ih fun d hd => h d (List.mem_cons_of_mem _ hd)
      simp [split, h c List.mem_cons_self, htail]

/-- **The cut between two texts.**  The first does not end in a separator and
the second begins with one. -/
theorem split_append {xs ys : List Char} (hx : ∀ h : xs ≠ [], isSeparator (xs.getLast h) = false)
    (hy : ys.head?.any isSeparator = true) : split (xs ++ ys) = split xs ++ (split ys).tail := by
  induction xs with
  | nil =>
      -- a text that begins with a separator has an empty first segment
      have hfirst : ∀ cs : List Char, cs.head?.any isSeparator = true →
          split cs = [] :: (split cs).tail := by
        intro cs
        induction cs with
        | nil => simp
        | cons c cs ih =>
            intro hc
            have hsep : isSeparator c = true := by simpa using hc
            unfold split
            rw [if_pos hsep]
            split
            next hnext => exact ih hnext
            next => rfl
      exact hfirst ys hy
  | cons c xs ih =>
      cases xs with
      | nil =>
          have hc : isSeparator c = false := hx (List.cons_ne_nil _ _)
          have htail := ih fun h => absurd rfl h
          rw [List.cons_append, split_character hc, split_character hc, htail]
          simp [split]
      | cons d xs =>
          have htail := ih fun h => by simpa using hx (List.cons_ne_nil _ _)
          rw [List.cons_append]
          cases hc : isSeparator c with
          | true =>
              rw [split_separator hc, split_separator hc, htail]
              simp only [List.cons_append, List.head?_cons]
              cases hd : isSeparator d <;> simp [hd]
          | false =>
              rw [split_character hc, split_character hc, htail]
              cases hsegments : split (d :: xs) with
              | nil => exact absurd hsegments (split_ne_nil _)
              | cons segment rest => rfl

/-! ## §3. Bind sources and ids. -/

/-- What is left of a source does not end in a separator. -/
theorem dropTrailing_last (source : String)
    (h : source.toList.rdropWhile isSeparator ≠ []) :
    isSeparator ((source.toList.rdropWhile isSeparator).getLast h) = false := by
  simpa using List.rdropWhile_last_not isSeparator source.toList h

/-- Dropping the separators at the end leaves the segments before them. -/
theorem mem_segments_dropTrailing {source seg : String} (h : seg ∈ segments (dropTrailing source)) :
    seg ∈ segments source := by
  unfold segments dropTrailing at h
  rw [String.toList_ofList] at h
  obtain ⟨cs, hcs, rfl⟩ := List.mem_map.mp h
  refine List.mem_map_of_mem ?_
  have hsource := List.rdropWhile_append_rtakeWhile (p := isSeparator) (l := source.toList)
  by_cases hnil : source.toList.rtakeWhile isSeparator = []
  · rw [hnil, List.append_nil] at hsource
    rwa [hsource] at hcs
  · have hseps : ∀ c ∈ source.toList.rtakeWhile isSeparator, isSeparator c = true :=
      fun c hc => List.mem_rtakeWhile_imp hc
    rw [← hsource, split_append (dropTrailing_last source)]
    · exact List.mem_append_left _ hcs
    · cases htail : source.toList.rtakeWhile isSeparator with
      | nil => exact absurd htail hnil
      | cons c cs => simpa using hseps c (by simp [htail])

theorem isSeparator_of_isContainerName {id : String} (h : isContainerName id = true) :
    ∀ c ∈ id.toList, isSeparator c = false := by
  have hslash : isAlphanumeric '/' = false := by decide
  have hbackslash : isAlphanumeric '\\' = false := by decide
  unfold isContainerName at h
  intro c hc
  cases hid : id.toList with
  | nil =>
      rw [hid] at hc
      cases hc
  | cons first rest =>
      rw [hid] at h hc
      simp only [Bool.and_eq_true, List.all_eq_true] at h
      obtain ⟨⟨hfirst, -⟩, hrest⟩ := h
      by_contra hsep
      have hsep : c = '/' ∨ c = '\\' := by
        unfold isSeparator at hsep
        simpa using Bool.not_eq_false _ |>.mp hsep
      rcases List.mem_cons.mp hc with rfl | hc
      · rcases hsep with rfl | rfl
        · exact absurd (hslash.symm.trans hfirst) Bool.false_ne_true
        · exact absurd (hbackslash.symm.trans hfirst) Bool.false_ne_true
      · have hallowed := hrest c hc
        rcases hsep with rfl | rfl
        · exact absurd hallowed (by decide)
        · exact absurd hallowed (by decide)

theorem not_dot_of_isContainerName {id : String} (h : isContainerName id = true) :
    id ≠ "." ∧ id ≠ ".." := by
  constructor <;> rintro rfl <;> revert h <;> decide

/-- An accepted source has no dot segment. -/
theorem hasDotSegment_of_readDataPaths {mcDataPath mcDataBindSource : Option String}
    {paths : DataPaths} (h : readDataPaths mcDataPath mcDataBindSource = .ok paths) :
    hasDotSegment paths.mcDataBindSource = false := by
  simp only [readDataPaths, bind, Except.bind, pure, Except.pure, throw, throwThe,
    MonadExceptOf.throw] at h
  repeat' split at h
  all_goals cases h
  rename_i hdot
  simpa using hdot

/-- What `resolveDataDir` returns. -/
theorem resolveDataDir_eq_ok {source id path : String} (h : resolveDataDir source id = .ok path) :
    isContainerName id = true ∧ path = dropTrailing source ++ "/" ++ id := by
  simp only [resolveDataDir, bind, Except.bind, pure, Except.pure, throw, throwThe,
    MonadExceptOf.throw] at h
  cases hid : isContainerName id <;> simp [hid] at h
  exact ⟨rfl, h.symm⟩

/-- The segments of a data directory. -/
theorem segments_dataDir (source : String) {id : String} (hid : isContainerName id = true) :
    segments (dropTrailing source ++ "/" ++ id) = segments (dropTrailing source) ++ [id] := by
  have hplain := isSeparator_of_isContainerName hid
  have hname : split ('/' :: id.toList) = [] :: [id.toList] := by
    rw [split_separator (by decide), split_of_plain hplain, if_neg]
    cases hhead : id.toList with
    | nil => simp
    | cons c cs => simpa using hplain c (by simp [hhead])
  have hpath : (dropTrailing source ++ "/" ++ id).toList =
      source.toList.rdropWhile isSeparator ++ '/' :: id.toList := by
    simp [dropTrailing]
  unfold segments
  rw [hpath, split_append (dropTrailing_last source) rfl, hname]
  simp [dropTrailing]

/-! ## §4. Confinement. -/

/-- **Data directories stay under the bind source.**  For every accepted source
and every accepted id the path has the segments of the source, without the
separators at its end, and then the id; none of them is `.` or `..`; and
different ids have different paths. -/
theorem data_directory_confined {mcDataPath mcDataBindSource : Option String} {paths : DataPaths}
    (haccepted : readDataPaths mcDataPath mcDataBindSource = .ok paths) {id path : String}
    (hresolved : resolveDataDir paths.mcDataBindSource id = .ok path) :
    segments path = segments (dropTrailing paths.mcDataBindSource) ++ [id] ∧
      (∀ seg ∈ segments path, seg ≠ "." ∧ seg ≠ "..") ∧
      ∀ id' path', resolveDataDir paths.mcDataBindSource id' = .ok path' → id' ≠ id →
        path' ≠ path := by
  obtain ⟨hid, rfl⟩ := resolveDataDir_eq_ok hresolved
  have hsegments := segments_dataDir paths.mcDataBindSource hid
  refine ⟨hsegments, fun seg hseg => ?_, fun id' path' hresolved' hne hsame => ?_⟩
  · rw [hsegments] at hseg
    rcases List.mem_append.mp hseg with hsource | hname
    · have hclean := hasDotSegment_of_readDataPaths haccepted
      have hseg := List.any_eq_false.mp hclean seg (mem_segments_dropTrailing hsource)
      simpa using hseg
    · rw [List.mem_singleton.mp hname]
      exact not_dot_of_isContainerName hid
  · -- the last segment tells the ids apart
    obtain ⟨hid', rfl⟩ := resolveDataDir_eq_ok hresolved'
    have hlast := (segments_dataDir paths.mcDataBindSource hid').symm.trans
      ((congrArg segments hsame).trans hsegments)
    exact hne (List.singleton_inj.mp (List.append_cancel_left hlast))

/-- A Windows source, mixed separators at its end. -/
theorem windowsSource_confined :
    resolveDataDir "C:\\mc-data\\/" "v1.20" = .ok "C:\\mc-data/v1.20" ∧
      segments "C:\\mc-data/v1.20" = segments "C:\\mc-data" ++ ["v1.20"] := by
  have haccepted : readDataPaths none (some "C:\\mc-data\\/") =
      .ok ⟨"/mc-data", "C:\\mc-data\\/"⟩ := by decide
  have hresolved : resolveDataDir "C:\\mc-data\\/" "v1.20" = .ok "C:\\mc-data/v1.20" := by decide
  exact ⟨hresolved, (data_directory_confined haccepted hresolved).1⟩

end MinePanel.Docker
