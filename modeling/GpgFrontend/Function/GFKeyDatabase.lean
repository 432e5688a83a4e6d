import GpgFrontend.Base.Rows
import GpgFrontend.Utils.KeyDatabaseList

/-!
# The database of keys (`GFKeyDatabase.cpp`)

What rPGP's keyrings are stored in: a table of keys, and one each of their user IDs, their
subkeys and their blocks, which go when the key goes.

- `GFKeyMetadata`: a key as the database is given it and gives it back.
- `GFKeyDatabase`: the tables, as lists of rows.
- `getMetadataList`, `getKeyMetadata`: every key, and one of them.
- `saveKey`, `deleteKey`, `disableKey`: the changes, and `step` over them.
-/

namespace GpgFrontend

/-- What is asked of Qt about texts: what `kRegexUserId` captures of a user ID, if it
matches, and which time a local ISO date is read back as that was written for a time. -/
structure KeyTexts where
  captureUserId : QString → Option (QString × QString × QString)
  readLocalDate : Int → Int

/-- `QString::toUpper`, on the ASCII letters that fingerprints and key IDs have. -/
def upperCaseUnit (c : UInt16) : UInt16 := if 97 ≤ c ∧ c ≤ 122 then c - 32 else c

def QString.toUpper (s : QString) : QString := s.map upperCaseUnit

/-! ## User IDs -/

structure GFUserId where
  name : QString := []
  email : QString := []
  comment : QString := []
  isPrimary : Bool := false
  isRevoked : Bool := false
  deriving DecidableEq

def assembleUserId (name comment email : QString) : QString :=
  let uid := name.trimmed
  let uid := if comment.trimmed.isEmpty then uid
    else (if uid.isEmpty then uid else uid ++ [0x20]) ++ [0x28] ++ comment.trimmed ++ [0x29]
  if email.trimmed.isEmpty then uid
  else (if uid.isEmpty then uid else uid ++ [0x20]) ++ [0x3C] ++ email.trimmed ++ [0x3E]

def GFUserId.toText (uid : GFUserId) : QString := assembleUserId uid.name uid.comment uid.email

def KeyTexts.parseUserId (qt : KeyTexts) (rawId : QString) : GFUserId :=
  match qt.captureUserId rawId with
  | some (name, comment, email) =>
    { name := name.trimmed, comment := comment.trimmed, email := email.trimmed }
  | none => { name := rawId }

/-- A user ID in parts and put together again. -/
def KeyTexts.respell (qt : KeyTexts) (rawId : QString) : QString := (qt.parseUserId rawId).toText

/-! ## Keys -/

structure GFSubKeyMetadata where
  keyVer : Int := 0
  fpr : QString := []
  keyId : QString := []
  algo : Int := 0
  keyLength : Nat := 0
  createdAt : Int := 0
  expiresAt : Int := 0
  hasSecret : Bool := false
  isRevoked : Bool := false
  canSign : Bool := false
  canEncrypt : Bool := false
  canAuth : Bool := false
  canCertify : Bool := false
  deriving DecidableEq

structure GFKeyMetadata where
  keyVer : Int := 0
  fpr : QString := []
  keyId : QString := []
  userIds : List GFUserId := []
  algo : Int := 0
  keyLength : Nat := 0
  createdAt : Int := 0
  expiresAt : Int := 0
  updateTime : Int := 0
  hasSecret : Bool := false
  isRevoked : Bool := false
  isDisabled : Bool := false
  canSign : Bool := false
  canEncrypt : Bool := false
  canAuth : Bool := false
  canCertify : Bool := false
  subkeys : List GFSubKeyMetadata := []
  deriving DecidableEq

structure GFKeyBlocks where
  publicKey : QString
  secretKey : QString
  deriving DecidableEq

def primaryKeyAsSubKey (key : GFKeyMetadata) : GFSubKeyMetadata where
  fpr := key.fpr
  keyId := key.keyId
  algo := key.algo
  createdAt := key.createdAt
  expiresAt := key.expiresAt
  hasSecret := key.hasSecret
  canSign := key.canSign
  canEncrypt := key.canEncrypt
  canAuth := key.canAuth
  canCertify := key.canCertify
  keyLength := key.keyLength
  isRevoked := false

/-! ## Tables -/

/-- A row of `key_metadata`. -/
structure KeyRow where
  fpr : QString
  keyId : QString
  algo : Int
  keyVer : Int
  keyLength : Nat
  createdAt : Int
  expiresAt : Int
  hasSecret : Bool
  isRevoked : Bool
  isDisabled : Bool
  canSign : Bool
  canEncrypt : Bool
  canAuth : Bool
  canCertify : Bool
  /-- The time that the text of `update_time` is read as. -/
  updateTime : Int
  deriving DecidableEq

/-- A row of `user_ids`. -/
structure UserIdRow where
  fpr : QString
  userId : QString
  isPrimary : Bool
  isRevoked : Bool
  deriving DecidableEq

/-- A row of `subkey_metadata`. -/
structure SubkeyRow where
  fpr : QString
  parentFpr : QString
  keyId : QString
  algo : Int
  keyVer : Int
  createdAt : Int
  expiresAt : Int
  keyLength : Nat
  hasSecret : Bool
  isRevoked : Bool
  canSign : Bool
  canEncrypt : Bool
  canAuth : Bool
  canCertify : Bool
  deriving DecidableEq

/-- A row of `key_blocks`. -/
structure KeyBlocksRow where
  fpr : QString
  blocks : GFKeyBlocks
  deriving DecidableEq

structure GFKeyDatabase where
  keys : List KeyRow := []
  userIds : List UserIdRow := []
  subkeys : List SubkeyRow := []
  blocks : List KeyBlocksRow := []
  deriving DecidableEq

namespace GFKeyDatabase

variable (qt : KeyTexts) (db : GFKeyDatabase)

/-! ## Looking up -/

/-- Blanks taken out, and in upper case. -/
def cleanId (identifier : QString) : QString :=
  QString.toUpper (identifier.filter fun c => !isSpaceUnit c)

/-- `k.has_secret DESC`, the smallest first; a parent that is not there comes last. -/
def parentRank (s : SubkeyRow) : Nat :=
  match db.keys.find? fun k => k.fpr = s.parentFpr with
  | some k => if k.hasSecret then 0 else 1
  | none => 2

/-- `ORDER BY k.has_secret DESC, s.parent_fpr`. -/
def subkeyBefore (s t : SubkeyRow) : Bool :=
  db.parentRank s < db.parentRank t ||
    (decide (db.parentRank s = db.parentRank t) && decide (s.parentFpr ≤ t.parentFpr))

/-- Empty for nothing found. -/
def resolvePrimaryFpr (identifier : QString) : QString :=
  let id := cleanId identifier
  if id.isEmpty then []
  else
    match db.keys.find? fun k => k.fpr = id || k.keyId = id with
    | some k => k.fpr
    | none =>
      let found := db.subkeys.filter fun s => s.fpr = id || s.keyId = id
      match (found.insertionSort fun s t => db.subkeyBefore s t).head? with
      | some s => s.parentFpr
      | none => []

/-- A user ID that is marked as the primary one is put first. -/
def primaryFirst (rows : List UserIdRow) : List GFUserId :=
  rows.foldl (fun uids row =>
    let uid : GFUserId :=
      { qt.parseUserId row.userId with isPrimary := row.isPrimary, isRevoked := row.isRevoked }
    if row.isPrimary then uid :: uids else uids ++ [uid]) []

def loadUserIdsForParent (fpr : QString) : List GFUserId :=
  let realPrimaryFpr := db.resolvePrimaryFpr fpr
  if realPrimaryFpr.isEmpty then []
  else primaryFirst qt (db.userIds.filter fun row => row.fpr = realPrimaryFpr)

def readSubkey (row : SubkeyRow) : GFSubKeyMetadata where
  fpr := row.fpr
  keyId := row.keyId
  algo := row.algo
  createdAt := row.createdAt
  hasSecret := row.hasSecret
  isRevoked := row.isRevoked
  keyLength := row.keyLength
  canSign := row.canSign
  canEncrypt := row.canEncrypt
  canAuth := row.canAuth
  canCertify := row.canCertify
  keyVer := row.keyVer
  expiresAt := row.expiresAt

def loadSubkeysForParent (parentFpr : QString) : List GFSubKeyMetadata :=
  (db.subkeys.filter fun row => row.parentFpr = parentFpr).map readSubkey

/-- What both reads load after the columns of the key itself. -/
def loadParts (key : GFKeyMetadata) : GFKeyMetadata :=
  let key := { key with userIds := db.loadUserIdsForParent qt key.fpr }
  let key := { key with subkeys := db.loadSubkeysForParent key.fpr }
  { key with subkeys := primaryKeyAsSubKey key :: key.subkeys }

/-- The columns that `GetMetadataList` selects. -/
def readListed (row : KeyRow) : GFKeyMetadata where
  fpr := row.fpr
  keyId := row.keyId
  algo := row.algo
  createdAt := row.createdAt
  hasSecret := row.hasSecret
  isRevoked := row.isRevoked
  isDisabled := row.isDisabled
  keyLength := row.keyLength
  canSign := row.canSign
  canEncrypt := row.canEncrypt
  canAuth := row.canAuth
  canCertify := row.canCertify
  updateTime := row.updateTime
  keyVer := row.keyVer
  expiresAt := row.expiresAt

/-- The columns that `GetKeyMetadata` selects. -/
def readSingle (row : KeyRow) : GFKeyMetadata where
  fpr := row.fpr
  keyId := row.keyId
  algo := row.algo
  createdAt := row.createdAt
  hasSecret := row.hasSecret
  isRevoked := row.isRevoked
  keyLength := row.keyLength
  canSign := row.canSign
  canEncrypt := row.canEncrypt
  canAuth := row.canAuth
  canCertify := row.canCertify
  updateTime := row.updateTime
  keyVer := row.keyVer
  expiresAt := row.expiresAt

def getMetadataList : List GFKeyMetadata :=
  db.keys.map fun row => db.loadParts qt (readListed row)

def getKeyMetadata (identifier : QString) : Option GFKeyMetadata :=
  let realPrimaryFpr := db.resolvePrimaryFpr identifier
  if realPrimaryFpr.isEmpty then none
  else
    (db.keys.find? fun row => row.fpr = realPrimaryFpr).map fun row =>
      db.loadParts qt (readSingle row)

def getKeyBlocks (identifier : QString) : Option GFKeyBlocks :=
  let realPrimaryFpr := db.resolvePrimaryFpr identifier
  if realPrimaryFpr.isEmpty then none
  else (db.blocks.find? fun row => row.fpr = realPrimaryFpr).map (·.blocks)

/-! ## Changes -/

def keyRow (key : GFKeyMetadata) (updateTime : Int) : KeyRow where
  fpr := key.fpr.toUpper
  keyId := key.keyId.toUpper
  algo := key.algo
  keyVer := key.keyVer
  createdAt := key.createdAt
  expiresAt := key.expiresAt
  hasSecret := key.hasSecret
  isRevoked := key.isRevoked
  isDisabled := key.isDisabled
  keyLength := key.keyLength
  canSign := key.canSign
  canEncrypt := key.canEncrypt
  canAuth := key.canAuth
  canCertify := key.canCertify
  updateTime := updateTime

def userIdRow (key : GFKeyMetadata) (uid : GFUserId) : UserIdRow where
  fpr := key.fpr.toUpper
  userId := uid.toText
  isPrimary := uid.isPrimary
  isRevoked := uid.isRevoked

def subkeyRow (key : GFKeyMetadata) (sub : GFSubKeyMetadata) : SubkeyRow where
  fpr := sub.fpr.toUpper
  parentFpr := key.fpr.toUpper
  keyId := sub.keyId.toUpper
  algo := sub.algo
  keyVer := sub.keyVer
  createdAt := sub.createdAt
  expiresAt := sub.expiresAt
  hasSecret := sub.hasSecret
  canSign := sub.canSign
  canEncrypt := sub.canEncrypt
  canAuth := sub.canAuth
  canCertify := sub.canCertify
  keyLength := sub.keyLength
  isRevoked := sub.isRevoked

/-- The time of the change, or the one that the metadata has. -/
def savedTime (key : GFKeyMetadata) (updateTs : Bool) (now : Int) : Int :=
  if updateTs then now else qt.readLocalDate key.updateTime

def userIdRows (key : GFKeyMetadata) : List UserIdRow := key.userIds.map (userIdRow key)

/-- The key itself, as the engines list it among its subkeys, is left out. -/
def subkeyRows (key : GFKeyMetadata) : List SubkeyRow :=
  (key.subkeys.filter fun sub => sub.fpr ≠ key.fpr).map (subkeyRow key)

/-- One transaction: a user ID given twice, or a subkey, rolls it back. -/
def saveKey (key : GFKeyMetadata) (blocks : GFKeyBlocks) (updateTs : Bool) (now : Int) :
    Option GFKeyDatabase :=
  if ((userIdRows key).map UserIdRow.userId).Nodup ∧ ((subkeyRows key).map SubkeyRow.fpr).Nodup then
    some
      { keys := replaceRow (·.fpr) db.keys (keyRow key (savedTime qt key updateTs now))
        userIds := (db.userIds.filter fun row => row.fpr ≠ key.fpr.toUpper) ++ userIdRows key
        subkeys :=
          (db.subkeys.filter fun row => row.parentFpr ≠ key.fpr.toUpper) ++ subkeyRows key
        blocks := replaceRow (·.fpr) db.blocks ⟨key.fpr.toUpper, blocks⟩ }
  else none

/-- `ON DELETE CASCADE` takes the rest along. -/
def deleteKey (fpr : QString) : GFKeyDatabase :=
  let primaryFpr := db.resolvePrimaryFpr fpr
  if primaryFpr.isEmpty then db
  else
    { keys := db.keys.filter fun row => row.fpr ≠ primaryFpr
      userIds := db.userIds.filter fun row => row.fpr ≠ primaryFpr
      subkeys := db.subkeys.filter fun row => row.parentFpr ≠ primaryFpr
      blocks := db.blocks.filter fun row => row.fpr ≠ primaryFpr }

def disableKey (fpr : QString) : GFKeyDatabase :=
  let realPrimaryFpr := db.resolvePrimaryFpr fpr
  if realPrimaryFpr.isEmpty then db
  else
    { db with
      keys := db.keys.map fun row =>
        if row.fpr = realPrimaryFpr then { row with isDisabled := true } else row }

end GFKeyDatabase

/-- A change, made at a time; a statement that SQLite fails changes nothing. -/
inductive KeyDatabaseChange where
  | saveKey (key : GFKeyMetadata) (blocks : GFKeyBlocks) (updateTs : Bool) (now : Int)
      (succeeds : Bool)
  | deleteKey (fpr : QString) (succeeds : Bool)
  | disableKey (fpr : QString) (succeeds : Bool)
  deriving DecidableEq

namespace GFKeyDatabase

def step (qt : KeyTexts) (db : GFKeyDatabase) : KeyDatabaseChange → GFKeyDatabase
  | .saveKey key blocks updateTs now succeeds =>
    if succeeds then (db.saveKey qt key blocks updateTs now).getD db else db
  | .deleteKey fpr succeeds => if succeeds then db.deleteKey fpr else db
  | .disableKey fpr succeeds => if succeeds then db.disableKey fpr else db

end GFKeyDatabase

end GpgFrontend
