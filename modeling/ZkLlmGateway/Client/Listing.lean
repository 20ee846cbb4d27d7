import ZkLlmGateway.Client.Instances
import ZkLlmGateway.Encoding.Trim
import ZkLlmGateway.Transition.KeyedLog

/-!
# The list of sessions

Sessions are listed from three sources, one after the other: the files of the
directory, the path that is set apart for the default session, and the sessions in
memory.  An id is recovered from the name of a file by trimming it.
-/

namespace ZkLlmGateway.Client

open ZkLlmGateway.Encoding ZkLlmGateway.Transition

/-! ## Files -/

inductive FileKind
  | file
  | other
  deriving DecidableEq

/-- What is at a location. -/
abbrev Disk := Location → Option FileKind

/-- The names of a directory, in the order in which they are read: all that is there, and
perhaps links that lead nowhere. -/
structure DirEntries (disk : Disk) (directory : Location) where
  names : List Bytes
  distinct : names.Nodup
  isName : ∀ name ∈ names, Path.IsName name
  complete : ∀ name, Path.IsName name → disk (directory ++ [name]) ≠ none → name ∈ names

/-- The keys of the map of sessions, in its order; they are validated before they are inserted. -/
structure LoadedIds where
  ids : List Text
  distinct : ids.Nodup
  valid : ∀ sessionId ∈ ids, ValidSessionId sessionId

/-- The sessions in memory of a manager, in any order. -/
def LoadedIds.ofManager {settings : ManagerSettings} {allowed : Manager → ManagerEvent → Prop}
    {manager : Manager} (reachable : (Manager.system settings).Reachable allowed manager)
    (ids : List Text) (distinct : ids.Nodup)
    (isLoaded : ∀ sessionId ∈ ids, manager.sessions sessionId ≠ none) : LoadedIds where
  ids := ids
  distinct := distinct
  valid sessionId member := TracedManager.valid_of_loaded reachable (isLoaded sessionId member)

/-! ## The list -/

/-- How paths are displayed; only in what is no text something is replaced. -/
structure PathDisplay where
  display : Path → Text
  display_utf8 : ∀ content, display (utf8 content) = content

/-- Information about a session for listing; the path is what is displayed. -/
structure SessionInfo where
  sessionId : Text
  path : Text
  existsOnDisk : Bool
  deriving DecidableEq

/-- Where the displayed path leads. -/
def SessionInfo.components (info : SessionInfo) : List Path.Component :=
  Path.components (utf8 info.path)

inductive ListError
  | readSessionsDir
  | readEntry (error : Text)

/-- The outermost context of the error. -/
def ListError.message (shows : PathDisplay) (config : AgentManagerConfig) : ListError → Text
  | readSessionsDir => text "read sessions dir " ++ shows.display config.sessionsDir
  | readEntry error => error

def sessionSuffix : Text :=
  text ".session.json"

/-- The name of a session with the ending so many times. -/
def suffixedName (sessionId : Text) (count : Nat) : Bytes :=
  utf8 (sessionId ++ times count sessionSuffix)

/-- The id that a file is listed under. -/
def sessionIdOf (name : Bytes) : Option Text :=
  match ofUtf8? name with
  | none => none
  | some name =>
      if sessionSuffix <:+ name then
        match validateSessionId (trimEndMatches sessionSuffix name) with
        | .error _ => none
        | .ok () => some (trimEndMatches sessionSuffix name)
      else none

/-- In the order of the ids. -/
def byId (infos : List SessionInfo) : List SessionInfo :=
  infos.mergeSort fun left right => !decide (right.sessionId < left.sessionId)

namespace AgentManagerConfig

variable (config : AgentManagerConfig) (shows : PathDisplay) (current : List Bytes) (disk : Disk)

/-- What is at a path. -/
def fileAt (current : List Bytes) (disk : Disk) (path : Path) : Option FileKind :=
  disk (Path.locate current path)

def scanEntry (name : Bytes) : Option SessionInfo :=
  let path := Path.join config.sessionsDir name
  if fileAt current disk path = some .file then
    (sessionIdOf name).map fun sessionId => ⟨sessionId, shows.display path, true⟩
  else none

/-- A session that is listed without a file of the directory. -/
def infoAt (sessionId : Text) (path : Path) : SessionInfo :=
  ⟨sessionId, shows.display path, (fileAt current disk path).isSome⟩

/-- The default session is visible even when its path does not follow the pattern, and so are
sessions that are not on disk yet. -/
def offered (loaded : LoadedIds) : List SessionInfo :=
  (config.defaultSessionPathOverride.map (infoAt shows current disk
      config.defaultSessionId)).toList ++
    loaded.ids.map fun sessionId =>
      infoAt shows current disk sessionId (config.sessionPathFor sessionId)

/-- What is listed of the directory. -/
def scanned (entries : DirEntries disk (Path.locate current config.sessionsDir)) :
    List SessionInfo :=
  entries.names.filterMap (config.scanEntry shows current disk)

/-- A session that is offered is added unless its id is listed already. -/
def collected (entries : DirEntries disk (Path.locate current config.sessionsDir))
    (loaded : LoadedIds) : List SessionInfo :=
  (config.offered shows current disk loaded).foldl (appendNew SessionInfo.sessionId)
    (config.scanned shows current disk entries)

def listSessions
    (scan : Except ListError (DirEntries disk (Path.locate current config.sessionsDir)))
    (loaded : LoadedIds) : Except ListError (List SessionInfo) :=
  match scan with
  | .error e => .error e
  | .ok entries =>
      .ok (byId (config.collected shows current disk entries loaded))

/-- Every listed session has an id of its own and the path where it would be opened, and
all sessions in memory and all session files are listed. -/
structure Lists (loaded : LoadedIds) (infos : List SessionInfo) : Prop where
  distinct : (infos.map SessionInfo.sessionId).Nodup
  valid : ∀ info ∈ infos, ValidSessionId info.sessionId
  sorted : infos.Pairwise fun left right => ¬right.sessionId < left.sessionId
  path : ∀ info ∈ infos,
    info.components = Path.components (config.sessionPathFor info.sessionId)
  onDisk : ∀ info ∈ infos, info.existsOnDisk = true ↔
    fileAt current disk (config.sessionPathFor info.sessionId) ≠ none
  loaded : ∀ sessionId ∈ loaded.ids, ∃ info ∈ infos, info.sessionId = sessionId
  files : ∀ sessionId owner, ValidSessionId sessionId →
    fileAt current disk (config.patternPath sessionId) = some .file →
      Path.components (config.sessionPathFor owner) =
          Path.components (config.patternPath sessionId) →
        ∃ info ∈ infos, info.components = Path.components (config.patternPath sessionId)

/-- The path of a file of the directory that is named after a session and ends like a session
file so many times. -/
def namedPath (sessionId : Text) (count : Nat) : Path :=
  Path.join config.sessionsDir (suffixedName sessionId count)

/-- The directory can be displayed if a path in it has to be; no file in it is named after a
session and ends like a session file more than once; at most one is named after a default session
that has a path set apart, and then shows just that path, which is on the disk; and this path can
be displayed, and the id is valid. -/
structure Tidy (loaded : LoadedIds) : Prop where
  readable : ∀ sessionId,
    ValidSessionId sessionId ∧ fileAt current disk (config.patternPath sessionId) = some .file ∨
      sessionId ∈ loaded.ids ∧ ¬config.Overridden sessionId → IsText config.sessionsDir
  once : ∀ sessionId count, ValidSessionId sessionId → ¬config.Overridden sessionId →
    fileAt current disk (config.namedPath sessionId (count + 2)) ≠ some .file
  single : ∀ sessionId left right, ValidSessionId sessionId → config.Overridden sessionId →
    fileAt current disk (config.namedPath sessionId (left + 1)) = some .file →
      fileAt current disk (config.namedPath sessionId (right + 1)) = some .file → left = right
  own : ∀ sessionId count, ValidSessionId sessionId → config.Overridden sessionId →
    fileAt current disk (config.namedPath sessionId (count + 1)) = some .file →
      Path.components (utf8 (shows.display (config.namedPath sessionId (count + 1)))) =
          Path.components (config.sessionPathFor sessionId) ∧
        fileAt current disk (config.sessionPathFor sessionId) ≠ none
  override : ∀ path, config.defaultSessionPathOverride = some path → IsText path
  default : config.defaultSessionPathOverride ≠ none → ValidSessionId config.defaultSessionId

end AgentManagerConfig

/-! ## Names and ids -/

/-- Where the results differ, each comes from one place. -/
theorem eq_of_nodup_filterMap {α β : Type} {list : List α} {f : α → Option β}
    (distinct : (list.filterMap f).Nodup) {left right : α} (inLeft : left ∈ list)
    (inRight : right ∈ list) {value : β} (isLeft : f left = some value)
    (isRight : f right = some value) : left = right := by
  have apart := List.pairwise_iff_getElem.mp (List.pairwise_filterMap.mp distinct)
  obtain ⟨i, isI, rfl⟩ := List.mem_iff_getElem.mp inLeft
  obtain ⟨j, isJ, rfl⟩ := List.mem_iff_getElem.mp inRight
  rcases Nat.lt_trichotomy i j with before | rfl | after
  · exact absurd rfl (apart i j isI isJ before value isLeft value isRight)
  · rfl
  · exact absurd rfl (apart j i isJ isI after value isRight value isLeft)

section Names

variable {sessionId : Text} {name : Bytes}

/-- No valid id ends like a session file. -/
theorem not_isSuffix_of_valid (valid : ValidSessionId sessionId) :
    ¬sessionSuffix <:+ sessionId := by
  intro isSuffix
  have dot : '.' ∈ sessionId := isSuffix.subset (by decide)
  have allowed := (validSessionId_iff.mp valid).2.2 '.' dot
  exact absurd allowed (by decide)

theorem suffixedName_one : suffixedName sessionId 1 = sessionFileName sessionId := by
  rw [suffixedName, times, List.replicate_one, List.flatten_singleton]
  rfl

theorem suffixedName_injective {left right : Nat}
    (same : suffixedName sessionId left = suffixedName sessionId right) : left = right := by
  have lengths := congrArg List.length (List.append_cancel_left (utf8_injective same))
  rw [length_times, length_times] at lengths
  exact Nat.eq_of_mul_eq_mul_right (by decide) lengths

theorem isName_suffixedName (valid : ValidSessionId sessionId) (count : Nat) :
    Path.IsName (suffixedName sessionId (count + 1)) := by
  have split : suffixedName sessionId (count + 1) =
      sessionFileName sessionId ++ utf8 (times count sessionSuffix) := by
    rw [suffixedName, sessionFileName, ← utf8_append, List.append_assoc]
    rfl
  rw [split]
  apply (isName_sessionFileName valid).append
  · rw [sessionFileName, length_utf8, byteLen_append]
    have long : 2 < byteLen (text ".session.json") := by decide
    omega
  · intro member
    obtain ⟨char, inside, isByte⟩ := List.mem_flatMap.mp member
    obtain ⟨suffix, isSuffix, within⟩ := List.mem_flatten.mp inside
    rw [List.eq_of_mem_replicate isSuffix] at within
    have absent : Path.separator ∉ utf8 sessionSuffix := by decide +kernel
    exact absent (List.mem_flatMap.mpr ⟨char, within, isByte⟩)

/-- A file is listed under the id that its name is after, with the ending once or more. -/
theorem sessionIdOf_eq_some_iff : sessionIdOf name = some sessionId ↔
    ValidSessionId sessionId ∧ ∃ count, name = suffixedName sessionId (count + 1) := by
  constructor
  · intro isId
    rw [sessionIdOf] at isId
    split at isId
    next => contradiction
    next content decodes =>
      split at isId
      next isSuffix =>
        split at isId
        next => contradiction
        next isValid =>
          cases isId
          obtain ⟨count, same⟩ := exists_eq_trimEndMatches_append sessionSuffix content
          refine ⟨isValid, ?_⟩
          cases count with
          | zero =>
              rw [times, List.replicate_zero, List.flatten_nil, List.append_nil] at same
              rw [← same] at isValid
              exact absurd isSuffix (not_isSuffix_of_valid isValid)
          | succ count =>
              refine ⟨count, ?_⟩
              rw [suffixedName, ← same]
              exact ofUtf8?_eq_some_iff.mp decodes
      next => contradiction
  · rintro ⟨valid, count, rfl⟩
    have isSuffix : sessionSuffix <:+ sessionId ++ times (count + 1) sessionSuffix := by
      rw [times_succ, ← List.append_assoc]
      exact List.suffix_append _ _
    have isValid : validateSessionId sessionId = .ok () := valid
    rw [sessionIdOf, suffixedName, ofUtf8?_utf8]
    simp only [if_pos isSuffix, trimEndMatches_append_times (not_isSuffix_of_valid valid), isValid]

end Names

/-! ## What is listed -/

namespace AgentManagerConfig

section Listing

variable {config : AgentManagerConfig} {shows : PathDisplay} {current : List Bytes} {disk : Disk}
  {info : SessionInfo} {sessionId : Text}
  {entries : DirEntries disk (Path.locate current config.sessionsDir)} {loaded : LoadedIds}

/-! ### Displayed paths -/

/-- A text is displayed as it is. -/
theorem components_display {path : Path} (isText : IsText path) :
    Path.components (utf8 (shows.display path)) = Path.components path := by
  obtain ⟨content, rfl⟩ := isText
  rw [shows.display_utf8]

theorem namedPath_one : config.namedPath sessionId 1 = config.patternPath sessionId := by
  rw [namedPath, suffixedName_one, patternPath]

theorem isText_namedPath_iff (valid : ValidSessionId sessionId) (count : Nat) :
    IsText (config.namedPath sessionId (count + 1)) ↔ IsText config.sessionsDir :=
  Path.isText_join_iff (isName_suffixedName valid count)

theorem isText_patternPath_iff (valid : ValidSessionId sessionId) :
    IsText (config.patternPath sessionId) ↔ IsText config.sessionsDir := by
  rw [← namedPath_one]
  exact isText_namedPath_iff valid 0

/-- Files that are named after a session have paths of their own. -/
theorem count_eq_of_components_eq (valid : ValidSessionId sessionId) {left right : Nat}
    (same : Path.components (config.namedPath sessionId (left + 1)) =
      Path.components (config.namedPath sessionId (right + 1))) : left = right := by
  have names := Path.name_eq_of_components_eq (isName_suffixedName valid left)
    (isName_suffixedName valid right) same
  exact Nat.succ.inj (suffixedName_injective names)

/-- A pattern path leads to the file of some id without a path set apart. -/
theorem exists_ordinary (valid : ValidSessionId sessionId) (nonempty : config.sessionsDir ≠ []) :
    ∃ owner, Path.components (config.sessionPathFor owner) =
      Path.components (config.patternPath sessionId) := by
  by_cases overridden : config.Overridden sessionId
  · refine ⟨text "./" ++ sessionId, ?_⟩
    have ordinary : ¬config.Overridden (text "./" ++ sessionId) := by
      rintro ⟨isDefault, _⟩
      rw [← overridden.1] at isDefault
      have lengths := congrArg List.length isDefault
      rw [List.length_append] at lengths
      have long : (text "./").length = 2 := rfl
      omega
    have name : sessionFileName (text "./" ++ sessionId) =
        utf8 (text "./") ++ sessionFileName sessionId := by
      rw [sessionFileName, sessionFileName, List.append_assoc, utf8_append]
    rw [sessionPathFor_of_not_overridden ordinary, patternPath, patternPath, name]
    exact Path.components_join_dot (isName_sessionFileName valid) nonempty
  · exact ⟨sessionId, congrArg Path.components (sessionPathFor_of_not_overridden overridden)⟩

/-! ### Files of the directory -/

/-- A file is listed with its own path. -/
theorem scanEntry_eq_some_iff {name : Bytes} :
    config.scanEntry shows current disk name = some info ↔
    fileAt current disk (Path.join config.sessionsDir name) = some .file ∧
      sessionIdOf name = some info.sessionId ∧
      info = ⟨info.sessionId, shows.display (Path.join config.sessionsDir name), true⟩ := by
  rw [scanEntry]
  split
  next isFile =>
    rw [Option.map_eq_some_iff]
    constructor
    · rintro ⟨sessionId, isId, rfl⟩
      exact ⟨isFile, isId, rfl⟩
    · rintro ⟨_, isId, same⟩
      exact ⟨info.sessionId, isId, same.symm⟩
  next notFile => exact iff_of_false (by simp) fun holds => notFile holds.1

/-- How a file named after a session is listed. -/
def namedInfo (config : AgentManagerConfig) (shows : PathDisplay) (sessionId : Text) (count : Nat) :
    SessionInfo :=
  ⟨sessionId, shows.display (config.namedPath sessionId count), true⟩

theorem scanEntry_suffixedName (valid : ValidSessionId sessionId) (count : Nat)
    (isFile : fileAt current disk (config.namedPath sessionId (count + 1)) = some .file) :
    config.scanEntry shows current disk (suffixedName sessionId (count + 1)) =
      some (config.namedInfo shows sessionId (count + 1)) :=
  scanEntry_eq_some_iff.mpr ⟨isFile, sessionIdOf_eq_some_iff.mpr ⟨valid, count, rfl⟩, rfl⟩

theorem mem_names (entries : DirEntries disk (Path.locate current config.sessionsDir))
    (valid : ValidSessionId sessionId) (count : Nat)
    (isFile : fileAt current disk (config.namedPath sessionId (count + 1)) = some .file) :
    suffixedName sessionId (count + 1) ∈ entries.names := by
  apply entries.complete _ (isName_suffixedName valid count)
  rw [fileAt, namedPath, Path.locate_join current (isName_suffixedName valid count)] at isFile
  rw [isFile]
  exact Option.some_ne_none _

/-- A session file is listed. -/
theorem exists_scanned (shows : PathDisplay)
    (entries : DirEntries disk (Path.locate current config.sessionsDir))
    (valid : ValidSessionId sessionId) (count : Nat)
    (isFile : fileAt current disk (config.namedPath sessionId (count + 1)) = some .file) :
    config.namedInfo shows sessionId (count + 1) ∈ config.scanned shows current disk entries :=
  List.mem_filterMap.mpr
    ⟨_, mem_names entries valid count isFile, scanEntry_suffixedName valid count isFile⟩

/-- What is listed of the directory are its session files. -/
theorem exists_of_scanned (member : info ∈ config.scanned shows current disk entries) :
    ValidSessionId info.sessionId ∧ ∃ count,
      fileAt current disk (config.namedPath info.sessionId (count + 1)) = some .file ∧
      info = config.namedInfo shows info.sessionId (count + 1) := by
  obtain ⟨name, _, scanned⟩ := List.mem_filterMap.mp member
  obtain ⟨isFile, isId, same⟩ := scanEntry_eq_some_iff.mp scanned
  obtain ⟨valid, count, rfl⟩ := sessionIdOf_eq_some_iff.mp isId
  exact ⟨valid, count, isFile, same⟩

/-- The files that are listed are listed once for each session when just one is named after it. -/
theorem nodup_scannedIds_iff
    (entries : DirEntries disk (Path.locate current config.sessionsDir)) :
    ((config.scanned shows current disk entries).map SessionInfo.sessionId).Nodup ↔
      ∀ sessionId left right, ValidSessionId sessionId →
        fileAt current disk (config.namedPath sessionId (left + 1)) = some .file →
        fileAt current disk (config.namedPath sessionId (right + 1)) = some .file →
          left = right := by
  rw [scanned, List.map_filterMap]
  constructor
  · intro distinct sessionId left right valid isLeft isRight
    have names : suffixedName sessionId (left + 1) = suffixedName sessionId (right + 1) := by
      have scannedId : ∀ {count}, fileAt current disk (config.namedPath sessionId (count + 1)) =
          some .file → (config.scanEntry shows current disk
            (suffixedName sessionId (count + 1))).map SessionInfo.sessionId = some sessionId := by
        intro count isFile
        rw [scanEntry_suffixedName valid count isFile]
        rfl
      exact eq_of_nodup_filterMap distinct (mem_names entries valid left isLeft)
        (mem_names entries valid right isRight) (scannedId isLeft) (scannedId isRight)
    exact Nat.succ.inj (suffixedName_injective names)
  · intro single
    apply List.Nodup.filterMap _ entries.distinct
    intro left right sessionId isLeft isRight
    obtain ⟨leftInfo, leftScanned, rfl⟩ := Option.map_eq_some_iff.mp isLeft
    obtain ⟨rightInfo, rightScanned, same⟩ := Option.map_eq_some_iff.mp isRight
    obtain ⟨leftFile, leftId, _⟩ := scanEntry_eq_some_iff.mp leftScanned
    obtain ⟨rightFile, rightId, _⟩ := scanEntry_eq_some_iff.mp rightScanned
    obtain ⟨valid, leftCount, rfl⟩ := sessionIdOf_eq_some_iff.mp leftId
    obtain ⟨_, rightCount, rfl⟩ := sessionIdOf_eq_some_iff.mp rightId
    rw [same] at rightFile ⊢
    rw [single leftInfo.sessionId leftCount rightCount valid leftFile rightFile]

/-! ### What is listed besides -/

/-- What is listed besides the files. -/
theorem exists_of_offered (member : info ∈ config.offered shows current disk loaded) :
    info = infoAt shows current disk info.sessionId (config.sessionPathFor info.sessionId) ∧
      (config.Overridden info.sessionId ∨ info.sessionId ∈ loaded.ids) := by
  rcases List.mem_append.mp member with isDefault | isLoaded
  · obtain ⟨path, override, rfl⟩ := Option.map_eq_some_iff.mp (Option.mem_toList.mp isDefault)
    have isPath := (sessionPathFor_default override).symm
    refine ⟨congrArg (infoAt shows current disk config.defaultSessionId) isPath, .inl ⟨rfl, ?_⟩⟩
    rw [override]
    exact Option.some_ne_none path
  · obtain ⟨sessionId, inMemory, rfl⟩ := List.mem_map.mp isLoaded
    exact ⟨rfl, .inr inMemory⟩

theorem pairwise_byId (infos : List SessionInfo) :
    (byId infos).Pairwise fun left right => ¬right.sessionId < left.sessionId := by
  have isNot : ∀ {left right : SessionInfo}, (!decide (right.sessionId < left.sessionId)) = true ↔
      ¬right.sessionId < left.sessionId := by
    intro left right
    rw [Bool.not_eq_true', decide_eq_false_iff_not]
  have transitive : ∀ left middle right : SessionInfo,
      (!decide (middle.sessionId < left.sessionId)) = true →
      (!decide (right.sessionId < middle.sessionId)) = true →
        (!decide (right.sessionId < left.sessionId)) = true := by
    intro left middle right first second
    exact isNot.mpr (List.le_trans (isNot.mp first) (isNot.mp second))
  have total : ∀ left right : SessionInfo, (!decide (right.sessionId < left.sessionId) ||
      !decide (left.sessionId < right.sessionId)) = true := by
    intro left right
    rw [Bool.or_eq_true, isNot, isNot]
    exact List.le_total left.sessionId right.sessionId
  exact (List.pairwise_mergeSort transitive total infos).imp isNot.mp

/-- The files are listed, and what is offered is listed under its id. -/
theorem extendsLog_collected : ExtendsLog SessionInfo.sessionId
    (config.scanned shows current disk entries)
    (config.collected shows current disk entries loaded) :=
  extendsLog_foldl _ _

theorem exists_collected (entries : DirEntries disk (Path.locate current config.sessionsDir))
    (member : info ∈ config.offered shows current disk loaded) :
    ∃ listed ∈ config.collected shows current disk entries loaded,
      listed.sessionId = info.sessionId :=
  List.mem_map.mp (mem_foldl_appendNew _ info member)

theorem perm_byId (infos : List SessionInfo) : (byId infos).Perm infos :=
  List.mergeSort_perm _ _

/-! ### A list that is right -/

section Right

variable (lists : config.Lists current disk loaded
  (byId (config.collected shows current disk entries loaded)))

include lists

theorem Lists.of_file (valid : ValidSessionId sessionId) {count : Nat}
    (isFile : fileAt current disk (config.namedPath sessionId (count + 1)) = some .file) :
    Path.components (utf8 (shows.display (config.namedPath sessionId (count + 1)))) =
        Path.components (config.sessionPathFor sessionId) ∧
      fileAt current disk (config.sessionPathFor sessionId) ≠ none := by
  have inDirectory := exists_scanned shows entries valid count isFile
  have member : config.namedInfo shows sessionId (count + 1) ∈
      byId (config.collected shows current disk entries loaded) :=
    (perm_byId _).mem_iff.mpr (extendsLog_collected.isPrefix.subset inDirectory)
  exact ⟨lists.path _ member, (lists.onDisk _ member).mp rfl⟩

/-- What is listed right can be displayed. -/
theorem Lists.isText_of_file (valid : ValidSessionId sessionId)
    (isFile : fileAt current disk (config.patternPath sessionId) = some .file) :
    IsText config.sessionsDir := by
  by_cases empty : config.sessionsDir = []
  · rw [empty]
    exact ⟨[], rfl⟩
  · obtain ⟨owner, leads⟩ := exists_ordinary valid empty
    obtain ⟨info, _, same⟩ := lists.files sessionId owner valid isFile leads
    exact (isText_patternPath_iff valid).mp (Path.isText_of_components_eq same)

theorem Lists.isText_of_loaded (inMemory : sessionId ∈ loaded.ids) :
    IsText (config.sessionPathFor sessionId) := by
  obtain ⟨info, member, rfl⟩ := lists.loaded sessionId inMemory
  exact Path.isText_of_components_eq (lists.path info member)

omit lists in
theorem exists_default (shows : PathDisplay)
    (entries : DirEntries disk (Path.locate current config.sessionsDir))
    (loaded : LoadedIds) {path : Path}
    (override : config.defaultSessionPathOverride = some path) :
    ∃ info ∈ byId (config.collected shows current disk entries loaded),
      info.sessionId = config.defaultSessionId := by
  have offers : infoAt shows current disk config.defaultSessionId path ∈
      config.offered shows current disk loaded := by
    apply List.mem_append_left
    rw [override]
    exact List.mem_singleton_self _
  obtain ⟨listed, member, isDefault⟩ := exists_collected entries offers
  exact ⟨listed, (perm_byId _).mem_iff.mpr member, isDefault⟩

theorem tidy_of_lists : config.Tidy shows current disk loaded := by
  constructor
  case readable =>
    rintro sessionId (⟨valid, isFile⟩ | ⟨inMemory, ordinary⟩)
    · exact lists.isText_of_file valid isFile
    · have isText := lists.isText_of_loaded inMemory
      rw [sessionPathFor_of_not_overridden ordinary] at isText
      exact (isText_patternPath_iff (loaded.valid sessionId inMemory)).mp isText
  case once =>
    intro sessionId count valid ordinary isFile
    obtain ⟨same, _⟩ := lists.of_file valid isFile
    rw [sessionPathFor_of_not_overridden ordinary] at same
    have isText := (isText_patternPath_iff valid).mp (Path.isText_of_components_eq same)
    rw [components_display ((isText_namedPath_iff valid (count + 1)).mpr isText),
      ← namedPath_one] at same
    have none : count + 1 = 0 := count_eq_of_components_eq valid same
    exact absurd none (Nat.succ_ne_zero count)
  case single =>
    intro sessionId left right valid _ isLeft isRight
    have distinct := extendsLog_collected.nodup_iff.mp
      (((perm_byId _).map _).nodup_iff.mp lists.distinct)
    exact (nodup_scannedIds_iff entries).mp distinct sessionId left right valid isLeft isRight
  case own =>
    intro sessionId count valid _ isFile
    exact lists.of_file valid isFile
  case override =>
    intro path override
    obtain ⟨info, member, isDefault⟩ := exists_default shows entries loaded override
    have same := lists.path info member
    rw [isDefault, sessionPathFor_default override] at same
    exact Path.isText_of_components_eq same
  case default =>
    intro hasOverride
    obtain ⟨path, override⟩ := Option.ne_none_iff_exists'.mp hasOverride
    obtain ⟨info, member, isDefault⟩ := exists_default shows entries loaded override
    rw [← isDefault]
    exact lists.valid info member

end Right

/-! ### A directory that is tidy -/

section Tidy

variable (tidy : config.Tidy shows current disk loaded)

include tidy

/-- The files have the paths of their sessions. -/
theorem Tidy.of_file (valid : ValidSessionId sessionId) {count : Nat}
    (isFile : fileAt current disk (config.namedPath sessionId (count + 1)) = some .file) :
    Path.components (utf8 (shows.display (config.namedPath sessionId (count + 1)))) =
        Path.components (config.sessionPathFor sessionId) ∧
      fileAt current disk (config.sessionPathFor sessionId) ≠ none := by
  by_cases overridden : config.Overridden sessionId
  · exact tidy.own sessionId count valid overridden isFile
  · cases count with
    | zero =>
        rw [Nat.zero_add, namedPath_one] at isFile ⊢
        have isText := tidy.readable sessionId (.inl ⟨valid, isFile⟩)
        rw [sessionPathFor_of_not_overridden overridden,
          components_display ((isText_patternPath_iff valid).mpr isText), isFile]
        exact ⟨rfl, Option.some_ne_none _⟩
    | succ count => exact absurd isFile (tidy.once sessionId count valid overridden)

theorem Tidy.single_of_file : ∀ sessionId left right, ValidSessionId sessionId →
    fileAt current disk (config.namedPath sessionId (left + 1)) = some .file →
    fileAt current disk (config.namedPath sessionId (right + 1)) = some .file → left = right := by
  intro sessionId left right valid isLeft isRight
  by_cases overridden : config.Overridden sessionId
  · exact tidy.single sessionId left right valid overridden isLeft isRight
  · cases left with
    | succ left => exact absurd isLeft (tidy.once sessionId left valid overridden)
    | zero =>
        cases right with
        | succ right => exact absurd isRight (tidy.once sessionId right valid overridden)
        | zero => rfl

/-- The paths of the sessions in memory and of the default session can be displayed. -/
theorem Tidy.isText_sessionPathFor
    (known : config.Overridden sessionId ∨ sessionId ∈ loaded.ids) :
    ValidSessionId sessionId ∧ IsText (config.sessionPathFor sessionId) := by
  by_cases overridden : config.Overridden sessionId
  · obtain ⟨rfl, hasOverride⟩ := overridden
    obtain ⟨path, override⟩ := Option.ne_none_iff_exists'.mp hasOverride
    rw [sessionPathFor_default override]
    exact ⟨tidy.default hasOverride, tidy.override path override⟩
  · have inMemory := known.resolve_left overridden
    have valid := loaded.valid sessionId inMemory
    rw [sessionPathFor_of_not_overridden overridden, isText_patternPath_iff valid]
    exact ⟨valid, tidy.readable sessionId (.inr ⟨inMemory, overridden⟩)⟩

/-- What is listed has the path of its session. -/
theorem Tidy.of_collected (member : info ∈ config.collected shows current disk entries loaded) :
    ValidSessionId info.sessionId ∧
      info.components = Path.components (config.sessionPathFor info.sessionId) ∧
      (info.existsOnDisk = true ↔
        fileAt current disk (config.sessionPathFor info.sessionId) ≠ none) := by
  rcases mem_of_mem_foldl_appendNew member with inDirectory | isOffered
  · obtain ⟨valid, count, isFile, same⟩ := exists_of_scanned inDirectory
    obtain ⟨isPath, isThere⟩ := tidy.of_file valid isFile
    rw [same]
    exact ⟨valid, isPath, iff_of_true rfl isThere⟩
  · obtain ⟨same, known⟩ := exists_of_offered isOffered
    obtain ⟨valid, isText⟩ := tidy.isText_sessionPathFor known
    rw [same]
    exact ⟨valid, components_display isText, Option.isSome_iff_ne_none⟩

/-- In a tidy directory the list is faithful. -/
theorem Tidy.lists : config.Lists current disk loaded
    (byId (config.collected shows current disk entries loaded)) := by
  have perm := perm_byId (config.collected shows current disk entries loaded)
  constructor
  case distinct =>
    rw [(perm.map _).nodup_iff, extendsLog_collected.nodup_iff, nodup_scannedIds_iff]
    exact tidy.single_of_file
  case valid => exact fun info member => (tidy.of_collected (perm.mem_iff.mp member)).1
  case sorted => exact pairwise_byId _
  case path => exact fun info member => (tidy.of_collected (perm.mem_iff.mp member)).2.1
  case onDisk => exact fun info member => (tidy.of_collected (perm.mem_iff.mp member)).2.2
  case loaded =>
    intro sessionId inMemory
    have offers : infoAt shows current disk sessionId (config.sessionPathFor sessionId) ∈
        config.offered shows current disk loaded :=
      List.mem_append_right _ (List.mem_map_of_mem inMemory)
    obtain ⟨listed, member, same⟩ := exists_collected entries offers
    exact ⟨listed, perm.mem_iff.mpr member, same⟩
  case files =>
    intro sessionId owner valid isFile _
    have isText := tidy.readable sessionId (.inl ⟨valid, isFile⟩)
    rw [← namedPath_one] at isFile ⊢
    have inDirectory := exists_scanned shows entries valid 0 isFile
    refine ⟨_, perm.mem_iff.mpr (extendsLog_collected.isPrefix.subset inDirectory), ?_⟩
    exact components_display ((isText_namedPath_iff valid 0).mpr isText)

end Tidy

/-- **Sessions are listed faithfully exactly when** the directory is tidy. -/
theorem lists_iff_tidy (config : AgentManagerConfig) (shows : PathDisplay) (current : List Bytes)
    (disk : Disk) (entries : DirEntries disk (Path.locate current config.sessionsDir))
    (loaded : LoadedIds) :
    ∃ infos, config.listSessions shows current disk (.ok entries) loaded = .ok infos ∧
      (config.Lists current disk loaded infos ↔ config.Tidy shows current disk loaded) := by
  refine ⟨_, rfl, ?_⟩
  exact ⟨tidy_of_lists, Tidy.lists⟩

end Listing

end AgentManagerConfig

/-! ## A name that ends twice -/

def doubledConfig : AgentManagerConfig where
  sessionsDir := utf8 (text "s")
  defaultSystemPrompt := []
  defaultSessionId := text "d"
  defaultSessionPathOverride := none

/-- Only texts are displayed. -/
def PathDisplay.texts : PathDisplay where
  display path := (ofUtf8? path).getD []
  display_utf8 content := by rw [ofUtf8?_utf8, Option.getD_some]

/-- Only `a.session.json.session.json` is on the disk. -/
def doubledDisk : Disk := fun location =>
  if location = [utf8 (text "s"), suffixedName (text "a") 2] then some .file else none

def doubledEntries : DirEntries doubledDisk (Path.locate [] doubledConfig.sessionsDir) where
  names := [suffixedName (text "a") 2]
  distinct := List.nodup_singleton _
  isName name member := by
    rw [List.mem_singleton.mp member]
    exact isName_suffixedName (by decide) 1
  complete name _ present := by
    have isThere : Path.locate [] doubledConfig.sessionsDir ++ [name] =
        [utf8 (text "s"), suffixedName (text "a") 2] := by
      by_contra other
      exact present (if_neg other)
    have directory : Path.locate [] doubledConfig.sessionsDir = [utf8 (text "s")] := by
      decide +kernel
    rw [directory] at isThere
    simpa using isThere

/-- The file is listed as session `a`, which has its file elsewhere. -/
theorem not_lists_doubled : ¬∀ (config : AgentManagerConfig) (shows : PathDisplay)
    (current : List Bytes) (disk : Disk)
    (entries : DirEntries disk (Path.locate current config.sessionsDir)) (loaded : LoadedIds),
    ∃ infos, config.listSessions shows current disk (.ok entries) loaded = .ok infos ∧
      config.Lists current disk loaded infos := by
  intro claim
  obtain ⟨infos, listed, lists⟩ := claim doubledConfig .texts [] doubledDisk doubledEntries
    ⟨[], List.nodup_nil, fun _ member => absurd member List.not_mem_nil⟩
  cases listed
  have tidy := AgentManagerConfig.tidy_of_lists lists
  apply tidy.once (text "a") 0 (by decide)
  · exact fun overridden => absurd rfl overridden.2
  · decide +kernel

end ZkLlmGateway.Client
