import Mathlib.Data.Nat.Digits.Defs
import GpgFrontend.OpenPGP.KeyGroupRepository

/-!
# The stored list of key databases (`GpgUtils.cpp`)

A profile stores which key databases it has. What is stored may come from another
computer, another build or an editor, so every read goes through
`ReconcileKeyDatabaseList`, a fixed order of passes over the list.
-/

namespace GpgFrontend

/-! ## Strings -/

/-- `QChar::isSpace`. -/
def isSpaceUnit (c : UInt16) : Bool :=
  (9 ≤ c && c ≤ 13) || c = 0x20 || c = 0x85 || c = 0xA0 || c = 0x1680 ||
    (0x2000 ≤ c && c ≤ 0x200A) || c = 0x2028 || c = 0x2029 || c = 0x202F || c = 0x205F ||
    c = 0x3000

/-- `QString::trimmed`. -/
def QString.trimmed (s : QString) : QString :=
  ((s.dropWhile isSpaceUnit).reverse.dropWhile isSpaceUnit).reverse

/-- Case folding, as far as a comparison with ASCII text can tell: the Kelvin sign and the
long s are the only others that fold into ASCII. -/
def foldCaseUnit (c : UInt16) : UInt16 :=
  if 65 ≤ c ∧ c ≤ 90 then c + 32 else if c = 0x212A then 107 else if c = 0x17F then 115 else c

def QString.foldCase (s : QString) : QString := s.map foldCaseUnit

/-- `split(.., Qt::SkipEmptyParts)`. -/
def splitSkippingEmpty (sep : UInt16 → Bool) (s : QString) : List QString :=
  (s.splitOnP sep).filter fun part => !part.isEmpty

def isSlash (c : UInt16) : Bool := c = 0x2F

def isAnySlash (c : UInt16) : Bool := c = 0x2F || c = 0x5C

/-- `join('/')`. -/
def joinSlash (parts : List QString) : QString := [0x2F].intercalate parts

/-- `DEFAULT`, folded. -/
def defaultKeyDatabaseNameFolded : QString := [100, 101, 102, 97, 117, 108, 116]

/-- `kDefaultKeyDatabaseName`. -/
def defaultKeyDatabaseName : QString := [68, 69, 70, 65, 85, 76, 84]

/-- `kDefaultKeyDatabaseId`: `default`. -/
def defaultKeyDatabaseId : QString := [100, 101, 102, 97, 117, 108, 116]

/-- `kProfilePathToken`: `@profile`. -/
def profilePathToken : QString := [64, 112, 114, 111, 102, 105, 108, 101]

/-- `@profile/`. -/
def profilePathPrefix : QString := profilePathToken ++ [0x2F]

def rpgpBackend : QString := [114, 112, 103, 112]

def dotDot : QString := [0x2E, 0x2E]

/-- `ManagedKeyDatabaseDirs`: `db`, `dbs` and `rpgp_db`. -/
def managedKeyDatabaseDirs : List QString :=
  [[100, 98], [100, 98, 115], [114, 112, 103, 112, 95, 100, 98]]

/-! ## Entries -/

inductive KeyDatabaseKind
  | default
  | managed
  | external
  deriving DecidableEq

structure KeyDatabaseItemSO where
  id : QString := []
  name : QString := []
  path : QString := []
  channel : Int32 := 0
  backendType : QString := []
  kind : Option KeyDatabaseKind := none
  deriving DecidableEq

/-- What is asked of `QDir` and `QFileInfo`. -/
structure ProfileFs where
  cleanPath : QString → QString
  isDir : QString → Bool
  canonicalFilePath : QString → QString
  absoluteFilePath : QString → QString

/-! ## Paths -/

/-- `IsProfileRelativeKeyDatabasePath`, and `IsProfileCarriedPath`, which is the same. -/
def isProfileRelativeKeyDatabasePath (storedPath : QString) : Bool :=
  storedPath = profilePathToken || profilePathPrefix.isPrefixOf storedPath

/-- `IsManagedKeyDatabasePath`. -/
def isManagedKeyDatabasePath (relativePath : QString) : Bool :=
  match splitSkippingEmpty isSlash relativePath with
  | [] => false
  | first :: rest => !(first :: rest).contains dotDot && managedKeyDatabaseDirs.contains first

namespace ProfileFs

variable (fs : ProfileFs)

def toProfileRelativeKeyDatabasePath (absolutePath profileRoot : QString) : QString :=
  let root := fs.cleanPath profileRoot
  let target := fs.cleanPath absolutePath
  if target = root then profilePathToken
  else if !(root ++ [0x2F]).isPrefixOf target then absolutePath
  else profilePathPrefix ++ target.drop (root.length + 1)

/-- A path that escapes the profile is refused. -/
def fromProfileRelativeKeyDatabasePath (storedPath profileRoot : QString) : QString :=
  let root := fs.cleanPath profileRoot
  if storedPath = profilePathToken then root
  else if !profilePathPrefix.isPrefixOf storedPath then storedPath
  else
    let resolved := fs.cleanPath (root ++ [0x2F] ++ storedPath.drop profilePathPrefix.length)
    if resolved ≠ root && !(root ++ [0x2F]).isPrefixOf resolved then [] else resolved

def keyDatabasePhysicalLocation (path : QString) : QString :=
  if path = [] then []
  else if fs.canonicalFilePath path = [] then fs.cleanPath (fs.absoluteFilePath path)
  else fs.canonicalFilePath path

def isSameKeyDatabaseLocation (a b : QString) : Bool :=
  fs.keyDatabasePhysicalLocation a ≠ [] &&
    fs.keyDatabasePhysicalLocation a = fs.keyDatabasePhysicalLocation b

end ProfileFs

/-- The last component that is the directory of a key database, and what follows it. -/
def managedTail : List QString → List QString
  | [] => []
  | component :: rest =>
    match managedTail rest with
    | [] => if managedKeyDatabaseDirs.contains component then component :: rest else []
    | tail => tail

def foreignKeyDatabasePathTail (storedPath : QString) : QString :=
  if storedPath = [] || isProfileRelativeKeyDatabasePath storedPath then []
  else
    let components := splitSkippingEmpty isAnySlash storedPath
    if components.contains dotDot then [] else joinSlash (managedTail components)

def ProfileFs.reanchorKeyDatabasePath (fs : ProfileFs) (storedPath profileRoot : QString) :
    QString :=
  if profileRoot = [] || storedPath = [] then storedPath
  else if isProfileRelativeKeyDatabasePath storedPath then storedPath
  else
    let relative := fs.toProfileRelativeKeyDatabasePath storedPath profileRoot
    if isProfileRelativeKeyDatabasePath relative then relative
    else if fs.isDir storedPath then storedPath
    else
      let tail := foreignKeyDatabasePathTail storedPath
      if tail = [] then storedPath
      else if !fs.isDir (fs.cleanPath (profileRoot ++ [0x2F] ++ tail)) then storedPath
      else profilePathPrefix ++ tail

/-! ## The DEFAULT entry -/

def isReservedKeyDatabaseName (name : QString) : Bool :=
  name.trimmed.foldCase = defaultKeyDatabaseNameFolded

/-- The loop of `DropDuplicateDefaultKeyDatabases`. -/
def dropDefaultsAfter : Bool → List KeyDatabaseItemSO → List KeyDatabaseItemSO
  | _, [] => []
  | seenDefault, item :: rest =>
    if !isReservedKeyDatabaseName item.name then item :: dropDefaultsAfter seenDefault rest
    else if seenDefault then dropDefaultsAfter seenDefault rest
    else item :: dropDefaultsAfter true rest

def dropDuplicateDefaultKeyDatabases (databases : List KeyDatabaseItemSO) :
    List KeyDatabaseItemSO :=
  dropDefaultsAfter false databases

/-- `%1 (%2)`. -/
def numberedName (base : QString) (n : Nat) : QString :=
  base ++ [0x20, 0x28] ++ (Nat.digits 10 n).reverse.map (fun d => UInt16.ofNat (48 + d)) ++ [0x29]

def isNameTaken (databases : List KeyDatabaseItemSO) (name : QString) : Bool :=
  databases.any fun item => item.name.foldCase = name.foldCase

/-- The loop of `UnusedKeyDatabaseName`, at most `fuel` times. -/
def unusedNameFrom (databases : List KeyDatabaseItemSO) (base : QString) :
    Nat → Nat → QString → QString
  | 0, _, name => name
  | fuel + 1, n, name =>
    if isNameTaken databases name then
      unusedNameFrom databases base fuel (n + 1) (numberedName base n)
    else name

/-- There are more names to try than entries to take them. -/
def unusedKeyDatabaseName (databases : List KeyDatabaseItemSO) (base : QString) : QString :=
  unusedNameFrom databases base (databases.length + 1) 2 base

section Adopt

variable (fs : ProfileFs) (databases : List KeyDatabaseItemSO) (localPath localBackend
  profileRoot : QString)

/-- The DEFAULT entry names another place than this computer's. -/
def isForeignDefault (item : KeyDatabaseItemSO) : Bool :=
  isReservedKeyDatabaseName item.name && item.path ≠ localPath

/-- An rPGP keyring inside the profile that DEFAULT is about to move away from, and that no
other entry has. -/
def carriesKeyring (item : KeyDatabaseItemSO) : Bool :=
  isForeignDefault localPath item && item.backendType = rpgpBackend &&
    isProfileRelativeKeyDatabasePath item.path &&
    !(profileRoot ≠ [] && fs.isSameKeyDatabaseLocation
        (fs.fromProfileRelativeKeyDatabasePath item.path profileRoot) localPath) &&
    !databases.any fun other =>
      !isReservedKeyDatabaseName other.name && other.backendType = rpgpBackend &&
        fs.cleanPath other.path = fs.cleanPath item.path

def adoptItem (item : KeyDatabaseItemSO) : KeyDatabaseItemSO :=
  if isForeignDefault localPath item then
    { item with
      path := localPath
      backendType := if localBackend ≠ [] then localBackend else item.backendType }
  else item

/-- The first channel after those of the list. -/
def nextChannel (items : List KeyDatabaseItemSO) : Int32 :=
  items.foldl (fun channel item => max channel (item.channel + 1)) 0

/-- The name a carried keyring is given: `rPGP`, or a number after it. -/
def carriedName : QString := unusedKeyDatabaseName databases [114, 80, 71, 80]

def adoptLocalDefaultKeyDatabase : List KeyDatabaseItemSO :=
  if localPath = [] then databases
  else
    let out := databases.map (adoptItem localPath localBackend)
    match (databases.filter (carriesKeyring fs databases localPath profileRoot)).getLast? with
    | none => out
    | some item => out ++
        [{ name := carriedName databases, backendType := rpgpBackend, path := item.path,
           channel := nextChannel out }]

end Adopt

/-! ## Kinds -/

def ProfileFs.classifyKeyDatabase (fs : ProfileFs) (name storedPath profileRoot : QString) :
    KeyDatabaseKind :=
  if isReservedKeyDatabaseName name then .default
  else if storedPath = [] || profileRoot = [] then .external
  else
    let relative := fs.toProfileRelativeKeyDatabasePath storedPath profileRoot
    if !profilePathPrefix.isPrefixOf relative then .external
    else if isManagedKeyDatabasePath (relative.drop profilePathPrefix.length) then .managed
    else .external

/-- The name wins over anything recorded. -/
def ProfileFs.resolveKind (fs : ProfileFs) (profileRoot : QString) (item : KeyDatabaseItemSO) :
    KeyDatabaseItemSO :=
  if isReservedKeyDatabaseName item.name then { item with kind := some .default }
  else
    match item.kind with
    | none | some .default =>
      { item with kind := some (fs.classifyKeyDatabase item.name item.path profileRoot) }
    | some _ => item

def ProfileFs.resolveKeyDatabaseKinds (fs : ProfileFs) (databases : List KeyDatabaseItemSO)
    (profileRoot : QString) : List KeyDatabaseItemSO :=
  databases.map (fs.resolveKind profileRoot)

/-! ## Channels -/

/-- The inner loop of `NormalizeKeyDatabaseChannels`: the entries that follow with the same
channel are moved up by one. -/
def raiseEqual (channel : Int32) : List KeyDatabaseItemSO → List KeyDatabaseItemSO
  | [] => []
  | item :: rest =>
    if item.channel = channel then
      { item with channel := channel + 1 } :: raiseEqual channel rest
    else item :: rest

/-- The outer loop, once for each entry. -/
def spreadChannels : Nat → List KeyDatabaseItemSO → List KeyDatabaseItemSO
  | 0, items => items
  | _, [] => []
  | n + 1, item :: rest => item :: spreadChannels n (raiseEqual item.channel rest)

/-- The stable sort by channel. -/
def sortByChannel (items : List KeyDatabaseItemSO) : List KeyDatabaseItemSO :=
  items.insertionSort fun a b => a.channel ≤ b.channel

def normalizeKeyDatabaseChannels (items : List KeyDatabaseItemSO) : List KeyDatabaseItemSO :=
  spreadChannels items.length (sortByChannel items)

/-! ## Identities -/

/-- The loop of `AssignKeyDatabaseIds`; `fresh n` is what `NewKeyDatabaseId` answers when it
is asked for the `n`th time. -/
def assignIdsFrom (fresh : Nat → QString) :
    Nat → List QString → List KeyDatabaseItemSO → List KeyDatabaseItemSO × Nat
  | n, _, [] => ([], n)
  | n, claimed, item :: rest =>
    if item.kind = some .default then
      let (out, n') := assignIdsFrom fresh n claimed rest
      ({ item with id := defaultKeyDatabaseId } :: out, n')
    else
      let id := item.id.trimmed
      if id = [] || id = defaultKeyDatabaseId || claimed.contains id then
        let (out, n') := assignIdsFrom fresh (n + 1) (fresh n :: claimed) rest
        ({ item with id := fresh n } :: out, n')
      else
        let (out, n') := assignIdsFrom fresh n (id :: claimed) rest
        ({ item with id := id } :: out, n')

def assignKeyDatabaseIds (fresh : Nat → QString) (n : Nat) (databases : List KeyDatabaseItemSO) :
    List KeyDatabaseItemSO × Nat :=
  assignIdsFrom fresh n [] databases

/-! ## This computer's own -/

/-- What is asked of the engine and the session about the DEFAULT database. -/
structure EngineState where
  /-- `gpgme.ctx.default_database_path`. -/
  homePath : QString
  selfContained : Bool
  gnupgSupported : Bool

def EngineState.backend (engine : EngineState) : QString :=
  if engine.gnupgSupported then [103, 110, 117, 112, 103] else rpgpBackend

section Default

variable (fs : ProfileFs) (engine : EngineState) (appDataPath : QString)

/-- A self-contained profile records its keyring relative to itself. -/
def ProfileFs.recordedPath (path : QString) : QString :=
  if engine.selfContained then fs.toProfileRelativeKeyDatabasePath path appDataPath else path

/-- The path is left empty when the engine names none. -/
def defaultKeyDatabaseCandidate : KeyDatabaseItemSO where
  channel := 0
  name := defaultKeyDatabaseName
  kind := some .default
  backendType := engine.backend
  path := if engine.homePath = [] then [] else fs.recordedPath engine appDataPath engine.homePath

/-- Falls back to `rpgp_db` in the profile. -/
def makeDefaultKeyDatabaseItem : KeyDatabaseItemSO :=
  let keyDb := defaultKeyDatabaseCandidate fs engine appDataPath
  if keyDb.path ≠ [] then keyDb
  else
    { keyDb with
      path := fs.recordedPath engine appDataPath
        (appDataPath ++ [0x2F, 114, 112, 103, 112, 95, 100, 98]) }

end Default

/-! ## The whole pass -/

/-- What does not change from one read to the next: the file system, this computer's DEFAULT
database, the one to seed with, and the two roots. -/
structure ReconcileInputs where
  fs : ProfileFs
  localDefault : KeyDatabaseItemSO
  fallback : KeyDatabaseItemSO
  profileRoot : QString
  appDataPath : QString

namespace ReconcileInputs

variable (c : ReconcileInputs)

/-- What the first two passes make of the stored list. -/
def adopted (stored : List KeyDatabaseItemSO) : List KeyDatabaseItemSO :=
  adoptLocalDefaultKeyDatabase c.fs (dropDuplicateDefaultKeyDatabases stored)
    c.localDefault.path c.localDefault.backendType c.profileRoot

def reanchor (item : KeyDatabaseItemSO) : KeyDatabaseItemSO :=
  { item with path := c.fs.reanchorKeyDatabasePath item.path c.profileRoot }

/-- The loop that drops the entries that name nothing. -/
def kept (stored : List KeyDatabaseItemSO) : List KeyDatabaseItemSO :=
  ((c.fs.resolveKeyDatabaseKinds (c.adopted stored) c.appDataPath).filter
    fun item => !item.path.isEmpty && !item.name.isEmpty).map c.reanchor

/-- Never nothing. -/
def seeded (stored : List KeyDatabaseItemSO) : List KeyDatabaseItemSO :=
  if (c.kept stored).isEmpty then [c.fallback] else c.kept stored

def reconcileKeyDatabaseList (fresh : Nat → QString) (n : Nat)
    (stored : List KeyDatabaseItemSO) : List KeyDatabaseItemSO × Nat :=
  assignKeyDatabaseIds fresh n (normalizeKeyDatabaseChannels (c.seeded stored))

end ReconcileInputs

/-! ## Packing -/

def ProfileFs.packedItem (fs : ProfileFs) (profileRoot : QString) (item : KeyDatabaseItemSO) :
    Option KeyDatabaseItemSO :=
  if item.kind ≠ none && item.kind ≠ some .managed then none
  else
    let rewritten := fs.toProfileRelativeKeyDatabasePath item.path profileRoot
    if rewritten = [] || !isProfileRelativeKeyDatabasePath rewritten then none
    else if !isManagedKeyDatabasePath ((rewritten.drop profilePathToken.length).drop 1) then none
    else some { item with path := rewritten }

def ProfileFs.rewriteKeyDatabaseListForPacking (fs : ProfileFs)
    (databases : List KeyDatabaseItemSO) (profileRoot : QString) : List KeyDatabaseItemSO :=
  databases.filterMap (fs.packedItem profileRoot)

end GpgFrontend
