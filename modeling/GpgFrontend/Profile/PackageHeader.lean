import GpgFrontend.Base.SecretStream

/-!
# The routing header of a package (`ProfilePackage.cpp`)

A package starts with the magic `GFPROF1\n`, a four-byte length and that many
bytes of JSON. The JSON reader and writer are Qt's and enter as a parameter
(`HeaderCodec`); everything around them is modelled.
-/

namespace GpgFrontend

/-- What protects a package's payload. -/
inductive ProfilePackageProtection where
  | pin
  | none
  deriving Repr, DecidableEq

namespace ProfilePackageProtection

/-- `ProfilePackageProtectionToString`. -/
def toText : ProfilePackageProtection → String
  | pin => "pin"
  | none => "none"

/-- `ProfilePackageProtectionFromString`: anything unknown is unprotected. -/
def ofText (value : String) : ProfilePackageProtection :=
  if value = "pin" then pin else none

end ProfilePackageProtection

/-- `ProfilePackageHeader`, with the defaults of the declaration. -/
structure ProfilePackageHeader where
  formatVersion : Int := 2
  minReader : Int := 2
  writer : String := ""
  writerStable : Bool := false
  created : String := ""
  protection : ProfilePackageProtection := .pin
  deriving Repr, DecidableEq

/-- The members of the header's JSON object, as `toInt`, `toString` and `toBool`
read them (an absent member is its default). -/
structure HeaderDocument where
  format : String
  formatVersion : Int
  minReader : Int
  writer : String
  writerStable : Bool
  created : String
  protection : String
  container : String
  deriving Repr, DecidableEq

/-- `QJsonDocument`, on this one kind of object: `fromJson` yields nothing for
bytes that are not a JSON object. -/
structure HeaderCodec where
  toJson : HeaderDocument → Bytes
  fromJson : Bytes → Option HeaderDocument

/-- `kProfilePackageMagic`: the bytes of `GFPROF1\n`. -/
def profilePackageMagic : Bytes := [71, 70, 80, 82, 79, 70, 49, 10]

/-- `kProfilePackageMagicLength`. -/
def profilePackageMagicLength : Nat := 8

theorem length_profilePackageMagic : profilePackageMagic.length = profilePackageMagicLength := rfl

/-- `kProfilePackageFormatVersion`. -/
def profilePackageFormatVersion : Int := 2

/-- `kMaxHeaderLength`. -/
def maxHeaderLength : Nat := 64 * 1024

/-- `EncodeProfilePackageHeader`. -/
def encodeProfilePackageHeader (codec : HeaderCodec) (header : ProfilePackageHeader) : Bytes :=
  let body := codec.toJson {
    format := "gfprofile"
    formatVersion := header.formatVersion
    minReader := header.minReader
    writer := header.writer
    writerStable := header.writerStable
    created := header.created
    protection := header.protection.toText
    container := if header.protection = .pin then "GFSEC2" else "none" }
  profilePackageMagic ++ (bigEndian32 body.length ++ body)

/-- `ProfilePackageHeaderStatus`. -/
inductive ProfilePackageHeaderStatus where
  | ok
  | notAPackage
  | truncated
  | malformed
  | tooNew
  deriving Repr, DecidableEq

/-- `ProfilePackageHeaderView`; `body_offset` is the length of `headerBytes`. -/
structure ProfilePackageHeaderView where
  status : ProfilePackageHeaderStatus
  detail : String
  header : ProfilePackageHeader
  headerBytes : Bytes
  deriving Repr, DecidableEq

/-- `body_offset`. -/
def ProfilePackageHeaderView.bodyOffset (view : ProfilePackageHeaderView) : Nat :=
  view.headerBytes.length

/-- The JSON part of `ParseProfilePackageHeader`. -/
def parseHeaderDocument (codec : HeaderCodec) (headerBytes json : Bytes) :
    ProfilePackageHeaderView :=
  match codec.fromJson json with
  | none => ⟨.malformed, "the header is not readable", {}, headerBytes⟩
  | some document =>
    if document.format ≠ "gfprofile" then
      ⟨.notAPackage, "this file is not a GpgFrontend profile package", {}, headerBytes⟩
    else
      let header : ProfilePackageHeader := {
        formatVersion := document.formatVersion
        minReader := document.minReader
        writer := document.writer
        writerStable := document.writerStable
        created := document.created
        protection := .ofText document.protection }
      -- only `min_reader` is grounds for a refusal
      if profilePackageFormatVersion < header.minReader then
        ⟨.tooNew, "this package was written by a newer version of GpgFrontend" ++
          (if header.writer = "" then "" else " (" ++ header.writer ++ ")"),
          header, headerBytes⟩
      else ⟨.ok, "", header, headerBytes⟩

/-- `ParseProfilePackageHeader`. -/
def parseProfilePackageHeader (codec : HeaderCodec) (bytes : Bytes) :
    ProfilePackageHeaderView :=
  if bytes.length < profilePackageMagicLength ∨
      bytes.take profilePackageMagicLength ≠ profilePackageMagic then
    ⟨.notAPackage, "this file is not a GpgFrontend profile package", {}, []⟩
  else if bytes.length < profilePackageMagicLength + 4 then
    ⟨.truncated, "the file ends before its header does", {}, []⟩
  else
    let length := ofBigEndian32 ((bytes.drop profilePackageMagicLength).take 4)
    if length = 0 ∨ maxHeaderLength < length then
      ⟨.malformed, "the header length is not believable", {}, []⟩
    else if bytes.length < profilePackageMagicLength + 4 + length then
      ⟨.truncated, "the file ends before its header does", {}, []⟩
    else parseHeaderDocument codec (bytes.take (profilePackageMagicLength + 4 + length))
      ((bytes.drop (profilePackageMagicLength + 4)).take length)

theorem parseHeaderDocument_headerBytes (codec : HeaderCodec) (headerBytes json : Bytes) :
    (parseHeaderDocument codec headerBytes json).headerBytes = headerBytes := by
  unfold parseHeaderDocument
  split
  · rfl
  · split
    · rfl
    · simp only
      split <;> rfl

variable {codec : HeaderCodec}

/-- An accepted header is the front of the bytes it was read from. -/
theorem parse_ok_headerBytes {bytes : Bytes}
    (h : (parseProfilePackageHeader codec bytes).status = .ok) :
    (parseProfilePackageHeader codec bytes).headerBytes <+: bytes := by
  unfold parseProfilePackageHeader at h ⊢
  split at h
  · exact nomatch h
  rw [if_neg ‹_›]
  split at h
  · exact nomatch h
  rw [if_neg ‹_›]
  simp only at h ⊢
  split at h
  · exact nomatch h
  rw [if_neg ‹_›]
  split at h
  · exact nomatch h
  rw [if_neg ‹_›, parseHeaderDocument_headerBytes]
  exact List.take_prefix _ _

/-- Where an accepted header ends: its length word says so. -/
theorem parse_ok_length {bytes : Bytes} (h : (parseProfilePackageHeader codec bytes).status = .ok) :
    let length := ofBigEndian32 ((bytes.drop profilePackageMagicLength).take 4)
    0 < length ∧ length ≤ maxHeaderLength ∧
      (parseProfilePackageHeader codec bytes).headerBytes.length =
        profilePackageMagicLength + 4 + length := by
  intro length
  unfold parseProfilePackageHeader at h ⊢
  split at h
  · exact nomatch h
  rw [if_neg ‹_›]
  split at h
  · exact nomatch h
  rw [if_neg ‹_›]
  simp only at h ⊢
  split at h
  · exact nomatch h
  next hlength =>
    rw [if_neg hlength]
    split at h
    · exact nomatch h
    next hlong =>
      rw [if_neg hlong, parseHeaderDocument_headerBytes, List.length_take]
      obtain ⟨hpos, hmax⟩ := not_or.mp hlength
      exact ⟨Nat.pos_of_ne_zero hpos, Nat.le_of_not_lt hmax, Nat.min_eq_left (Nat.le_of_not_lt hlong)⟩

/-- What has the outer form of a header: the magic, a length and that many bytes. -/
def IsHeaderBytes (headerBytes : Bytes) : Prop :=
  ∃ json : Bytes, json.length < 2 ^ 32 ∧
    headerBytes = profilePackageMagic ++ (bigEndian32 json.length ++ json)

/-- In front of a body, a header is read up to its own end. -/
theorem headerBytes_of_isHeaderBytes {headerBytes body : Bytes} {n : Nat}
    (hheader : IsHeaderBytes headerBytes) (hn : profilePackageMagicLength + 4 ≤ n)
    (hok : (parseProfilePackageHeader codec ((headerBytes ++ body).take n)).status = .ok) :
    (parseProfilePackageHeader codec ((headerBytes ++ body).take n)).headerBytes = headerBytes := by
  obtain ⟨json, hword, rfl⟩ := hheader
  have hlen := (parse_ok_length hok).2.2
  have hfront := (parse_ok_headerBytes hok).trans (List.take_prefix _ _)
  have hread : ((((profilePackageMagic ++ (bigEndian32 json.length ++ json)) ++ body).take n).drop
      profilePackageMagicLength).take 4 = bigEndian32 json.length := by
    rw [List.drop_take, List.take_take, Nat.min_eq_left (by omega), List.append_assoc,
      List.drop_left' length_profilePackageMagic, List.append_assoc,
      List.take_left' (length_bigEndian32 _)]
  rw [hread, ofBigEndian32_bigEndian32 hword] at hlen
  have hsame : (profilePackageMagic ++ (bigEndian32 json.length ++ json)).length =
      profilePackageMagicLength + 4 + json.length := by
    rw [List.length_append, List.length_append, length_bigEndian32, length_profilePackageMagic]
    omega
  exact (List.prefix_of_prefix_length_le hfront (List.prefix_append _ _)
    (Nat.le_of_eq (hlen.trans hsame.symm))).eq_of_length (hlen.trans hsame.symm)

/-- The document a header is written as. -/
def headerDocument (header : ProfilePackageHeader) : HeaderDocument where
  format := "gfprofile"
  formatVersion := header.formatVersion
  minReader := header.minReader
  writer := header.writer
  writerStable := header.writerStable
  created := header.created
  protection := header.protection.toText
  container := if header.protection = .pin then "GFSEC2" else "none"

/-- The JSON reader gives back this header's document. -/
def HeaderCodec.Keeps (codec : HeaderCodec) (header : ProfilePackageHeader) : Prop :=
  codec.fromJson (codec.toJson (headerDocument header)) = some (headerDocument header)

theorem ProfilePackageProtection.ofText_toText (protection : ProfilePackageProtection) :
    ofText protection.toText = protection := by
  cases protection <;> rfl

/-- The length word leads the reader to the JSON behind it. -/
theorem parse_framed {json body : Bytes} {n : Nat} (hpos : 0 < json.length)
    (hmax : json.length ≤ maxHeaderLength)
    (hn : (profilePackageMagic ++ (bigEndian32 json.length ++ json)).length ≤ n) :
    parseProfilePackageHeader codec
        (((profilePackageMagic ++ (bigEndian32 json.length ++ json)) ++ body).take n) =
      parseHeaderDocument codec (profilePackageMagic ++ (bigEndian32 json.length ++ json)) json := by
  rw [List.take_append, List.take_of_length_le hn]
  set front := profilePackageMagic ++ (bigEndian32 json.length ++ json) with hfront
  set tail := body.take (n - front.length)
  have hlen : front.length = profilePackageMagicLength + 4 + json.length := by
    rw [hfront, List.length_append, List.length_append, length_bigEndian32,
      length_profilePackageMagic]
    omega
  have hword : json.length < 2 ^ 32 := Nat.lt_of_le_of_lt hmax (by decide)
  have hmagic : (front ++ tail).take profilePackageMagicLength = profilePackageMagic := by
    rw [hfront, List.append_assoc, List.take_left' length_profilePackageMagic]
  have hrest : (front ++ tail).drop profilePackageMagicLength =
      bigEndian32 json.length ++ (json ++ tail) := by
    rw [hfront, List.append_assoc, List.drop_left' length_profilePackageMagic, List.append_assoc]
  have hbody : (front ++ tail).drop (profilePackageMagicLength + 4) = json ++ tail := by
    rw [← List.drop_drop, hrest, List.drop_left' (length_bigEndian32 _)]
  rw [parseProfilePackageHeader, if_neg, if_neg, hrest, List.take_left' (length_bigEndian32 _),
    ofBigEndian32_bigEndian32 hword]
  · dsimp only
    rw [if_neg (by omega), if_neg, hbody, List.take_left' rfl, ← hlen, List.take_left' rfl]
    rw [List.length_append]
    omega
  · rw [List.length_append]
    omega
  · rw [hmagic, List.length_append]
    exact not_or.mpr ⟨by omega, fun h => h rfl⟩

/-- What a header of a package that only a later build reads is refused with. -/
def tooNewDetail (writer : String) : String :=
  "this package was written by a newer version of GpgFrontend" ++
    (if writer = "" then "" else " (" ++ writer ++ ")")

variable {header : ProfilePackageHeader}

theorem parseHeaderDocument_keeps (hcodec : codec.Keeps header) (headerBytes : Bytes) :
    parseHeaderDocument codec headerBytes (codec.toJson (headerDocument header)) =
      if profilePackageFormatVersion < header.minReader then
        ⟨.tooNew, tooNewDetail header.writer, header, headerBytes⟩
      else ⟨.ok, "", header, headerBytes⟩ := by
  rw [parseHeaderDocument, hcodec]
  dsimp only [headerDocument]
  rw [if_neg (not_not_intro rfl), ProfilePackageProtection.ofText_toText]
  unfold tooNewDetail
  rfl

/-- A header read back is the one written, also where it asks for a later reader. -/
theorem parse_encode_header (hcodec : codec.Keeps header) {b : Bytes} {n : Nat}
    (hpos : profilePackageMagicLength + 4 < (encodeProfilePackageHeader codec header).length)
    (hfits : (encodeProfilePackageHeader codec header).length ≤
      profilePackageMagicLength + 4 + maxHeaderLength)
    (hn : (encodeProfilePackageHeader codec header).length ≤ n) :
    parseProfilePackageHeader codec ((encodeProfilePackageHeader codec header ++ b).take n) =
      if profilePackageFormatVersion < header.minReader then
        ⟨.tooNew, tooNewDetail header.writer, header, encodeProfilePackageHeader codec header⟩
      else ⟨.ok, "", header, encodeProfilePackageHeader codec header⟩ := by
  have hshape : encodeProfilePackageHeader codec header = profilePackageMagic ++
      (bigEndian32 (codec.toJson (headerDocument header)).length ++
        codec.toJson (headerDocument header)) := rfl
  have hlen : (encodeProfilePackageHeader codec header).length =
      profilePackageMagicLength + 4 + (codec.toJson (headerDocument header)).length := by
    rw [hshape, List.length_append, List.length_append, length_bigEndian32,
      length_profilePackageMagic]
    omega
  have hjson : 0 < (codec.toJson (headerDocument header)).length := by omega
  have hmax : (codec.toJson (headerDocument header)).length ≤ maxHeaderLength := by omega
  rw [hshape] at hn ⊢
  rw [parse_framed hjson hmax hn, parseHeaderDocument_keeps hcodec]

end GpgFrontend
