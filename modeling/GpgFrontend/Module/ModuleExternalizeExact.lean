import GpgFrontend.Module.ModuleExternalize
import Mathlib.Data.List.Dedup

/-!
# What externalizing a module changes

- `externalize_exact_iff`: **the output is the input with the claims exactly if no name of the
  input holds a dot.**
-/

namespace GpgFrontend

/-! ## What is asked for -/

/-- A claim of the publisher, where one is made. -/
def withClaim (metadata : JsonObject) (key text : String) : JsonObject :=
  if text = "" then metadata else metadata.put key (.string text)

/-- The document externalizing is to produce. -/
def externalizedDocument (input : JsonObject) (spec : ModuleExternalizeSpec) : JsonObject :=
  input.put "metadata" (.object (withClaim
    (withClaim (metadataOf input) moduleMetadataPublisher spec.publisherName)
    moduleMetadataPublisherUrl spec.publisherUrl))

/-- No name in a value holds a dot. -/
def Undotted (v : JsonValue) : Prop := ∀ name ∈ v.names, '.' ∉ name.toList

theorem undotted_object {members : JsonObject} :
    Undotted (.object members) ↔
      ∀ member ∈ members, '.' ∉ member.1.toList ∧ Undotted member.2 := by
  constructor
  · intro h member hmember
    refine ⟨h _ ?_, fun name hname => h name ?_⟩
    · exact JsonValue.mem_memberNames.2 ⟨member, hmember, .inl rfl⟩
    · exact JsonValue.mem_memberNames.2 ⟨member, hmember, .inr hname⟩
  · intro h name hname
    obtain ⟨member, hmember, rfl | hin⟩ := JsonValue.mem_memberNames.1 hname
    · exact (h member hmember).1
    · exact (h member hmember).2 name hin

theorem undotted_array {items : List JsonValue} :
    Undotted (.array items) ↔ ∀ v ∈ items, Undotted v := by
  constructor
  · exact fun h v hv name hname => h name (JsonValue.mem_itemNames.2 ⟨v, hv, hname⟩)
  · intro h name hname
    obtain ⟨v, hv, hin⟩ := JsonValue.mem_itemNames.1 hname
    exact h v hv name hin

theorem undotted_string (text : String) : Undotted (.string text) := List.forall_mem_nil _

theorem undotted_number (q : ℚ) : Undotted (.number q) := List.forall_mem_nil _

/-! ## The checks -/

theorem requireEach_ok {α : Type} {check : α → Except String Unit} {items : List α} :
    requireEach check items = .ok () ↔ ∀ a ∈ items, check a = .ok () := by
  induction items with
  | nil => simp [requireEach]
  | cons a rest ih =>
    rw [requireEach, bind_eq_ok, List.forall_mem_cons, ← ih]
    constructor
    · rintro ⟨_, ha, hrest⟩
      exact ⟨ha, hrest⟩
    · rintro ⟨ha, hrest⟩
      exact ⟨(), ha, hrest⟩

theorem mem_sortedPaths {paths : List String} {path : String} :
    path ∈ sortedPaths paths ↔ path ∈ paths := by
  rw [sortedPaths, List.mem_insertionSort, List.mem_dedup]

theorem mem_keyPaths {manifest : JsonObject} {path : String} :
    path ∈ keyPaths manifest ↔ path ∈ walkMembers manifest "" := mem_sortedPaths

/-- Every path has a rule, and every key of the metadata is one the paths can tell. -/
structure Covered (manifest : JsonObject) : Prop where
  ruled : ∀ path ∈ walkMembers manifest "", (ruleFor path).isSome = true
  keys : ∀ member ∈ metadataOf manifest, '.' ∉ member.1.toList ∧ '[' ∉ member.1.toList

theorem covered_of_check {manifest : JsonObject} {side : String}
    (h : checkContractCoverage manifest side = .ok ()) : Covered manifest := by
  unfold checkContractCoverage at h
  obtain ⟨⟨⟩, hruled, hkeys⟩ := bind_eq_ok.1 h
  rw [requireEach_ok] at hruled hkeys
  exact ⟨fun path hpath => require_eq_ok.1 (hruled path (mem_keyPaths.2 hpath)),
    fun member hmember => require_eq_ok.1 (hkeys member hmember)⟩

/-- The rows hold of both documents. -/
structure Preserved (input output : JsonObject) (spec : ModuleExternalizeSpec) : Prop where
  walked : ∀ path, path ∈ walkMembers input "" ∨ path ∈ walkMembers output "" →
    checkPath input output spec path = .ok ()
  claimed : ∀ path ∈ (externalizeChanges spec).map Prod.fst,
    checkPath input output spec path = .ok ()

theorem preserved_of_check {input output : JsonObject} {spec : ModuleExternalizeSpec}
    (h : checkPreserved input output spec = .ok ()) : Preserved input output spec := by
  unfold checkPreserved at h
  rw [requireEach_ok] at h
  refine ⟨fun path hpath => h path (mem_sortedPaths.2 ?_),
    fun path hpath => h path (mem_sortedPaths.2 (List.mem_append_right _ hpath))⟩
  rw [List.mem_append, List.mem_append, mem_keyPaths, mem_keyPaths]
  exact .inl hpath

/-! ## Paths -/

section Paths

variable {root o members : JsonObject} {above key path : String} {v : JsonValue}

theorem childPath_mem_walk (h : (key, v) ∈ members) :
    childPath above key ∈ walkMembers members above := by
  induction members with
  | nil => cases h
  | cons member rest ih =>
    rw [walkMembers]
    rcases List.mem_cons.1 h with rfl | hrest
    · exact List.mem_cons_self
    · exact List.mem_cons_of_mem _ (List.mem_append_right _ (ih hrest))

theorem walkValue_subset (h : (key, v) ∈ members) :
    ∀ p ∈ walkValue v (childPath above key), p ∈ walkMembers members above := by
  induction members with
  | nil => cases h
  | cons member rest ih =>
    intro p hp
    rw [walkMembers]
    rcases List.mem_cons.1 h with rfl | hrest
    · exact List.mem_cons_of_mem _ (List.mem_append_left _ hp)
    · exact List.mem_cons_of_mem _ (List.mem_append_right _ (ih hrest p hp))

theorem walkItems_subset {items : List JsonValue} (h : .object o ∈ items) :
    ∀ p ∈ walkMembers o path, p ∈ walkItems items path := by
  induction items with
  | nil => cases h
  | cons item rest ih =>
    intro p hp
    rcases List.mem_cons.1 h with rfl | hrest
    · rw [walkItems]
      exact List.mem_append_left _ hp
    · cases item with
      | object first =>
        rw [walkItems]
        exact List.mem_append_right _ (ih hrest p hp)
      | _ =>
        rw [walkItems]
        · exact ih hrest p hp
        · exact fun _ hcontra => by cases hcontra

/-- The segments above a member. -/
def pathSegments (path : String) : List (List Char) :=
  if path = "" then [] else dottedParts path.toList

theorem dottedParts_key (h : '.' ∉ key.toList) : dottedParts key.toList = [key.toList] :=
  List.splitOnP_eq_singleton fun _ hc => beq_false_of_ne fun heq => h (heq ▸ hc)

/-- The segments of a member are those above it and its name. -/
theorem dottedParts_childPath (h : '.' ∉ key.toList) :
    dottedParts (childPath above key).toList = pathSegments above ++ [key.toList] := by
  unfold childPath pathSegments
  split
  · rw [dottedParts_key h]
    rfl
  · rw [String.toList_append, String.toList_append, List.append_assoc]
    show dottedParts (above.toList ++ '.' :: key.toList) = _
    rw [dottedParts, List.splitOnP_append_cons _ _ rfl]
    exact congrArg _ (dottedParts_key h)

theorem childPath_ne_empty (h : key ≠ "") : childPath above key ≠ "" := by
  unfold childPath
  split
  · exact h
  · intro heq
    have hlist := congrArg String.toList heq
    rw [String.toList_append] at hlist
    exact h (String.toList_inj.1 (List.append_eq_nil_iff.1 hlist).2)

/-- A name that is one segment of a path, and not that of an array. -/
structure PlainKey (key : String) : Prop where
  nonempty : key ≠ ""
  undotted : '.' ∉ key.toList
  single : "[]".toList.isSuffixOf key.toList = false

theorem stepInto_plain (h : "[]".toList.isSuffixOf key.toList = false) (values : List JsonValue) :
    stepInto values key.toList = values.flatMap fun v => (v.toObject.value key).toList := by
  unfold stepInto
  simp only [h, Bool.false_eq_true, if_false, String.ofList_toList]
  refine List.flatMap_congr fun v _ => ?_
  cases v.toObject.value key <;> rfl

end Paths

/-! ## Rules -/

section Rules

variable {above key path : String}

/-- The names the contract knows directly under some segments. -/
def contractNames (segments : List (List Char)) : List (List Char) :=
  externalizeContract.filterMap fun row =>
    if (dottedParts row.1.toList).dropLast = segments then (dottedParts row.1.toList).getLast?
    else none

/-- A rule is that of a row, or that of the free map `metadata`. -/
theorem ruleFor_cases (h : (ruleFor path).isSome = true) :
    (∃ row ∈ externalizeContract, row.1 = path) ∨ "metadata.".toList.isPrefixOf path.toList := by
  unfold ruleFor at h
  split at h
  · next row hfind =>
    exact .inl ⟨row, List.mem_of_find?_eq_some hfind, by simpa using List.find?_some hfind⟩
  · rw [Option.isSome_map, List.find?_isSome] at h
    obtain ⟨row, hrow, hcovers⟩ := h
    have hstar : ∀ row ∈ externalizeContract, ".*".toList.isSuffixOf row.1.toList = true →
        row.1.toList.dropLast = "metadata.".toList := by decide +kernel
    unfold coversBelow at hcovers
    simp only [Bool.and_eq_true] at hcovers
    rw [hstar row hrow hcovers.1.1] at hcovers
    exact .inr hcovers.2

/-- A name with a rule, outside the free map, is one the contract knows there. -/
theorem mem_contractNames (hkey : '.' ∉ key.toList)
    (hrule : (ruleFor (childPath above key)).isSome = true)
    (hmeta : ¬ "metadata.".toList.isPrefixOf (childPath above key).toList) :
    key.toList ∈ contractNames (pathSegments above) := by
  obtain ⟨row, hrow, hpath⟩ := (ruleFor_cases hrule).resolve_right hmeta
  refine List.mem_filterMap.2 ⟨row, hrow, ?_⟩
  rw [hpath, dottedParts_childPath hkey, List.dropLast_concat, if_pos rfl, List.getLast?_concat]

/-- Under another head the free map is out of reach. -/
theorem not_metadata_of_head {c : Char} {rest : List Char} (h : above.toList = c :: rest)
    (hc : c ≠ 'm') : ¬ "metadata.".toList.isPrefixOf (childPath above key).toList := by
  have hne : above ≠ "" := by
    rintro rfl
    cases h
  rw [childPath, if_neg hne, String.toList_append, String.toList_append, h]
  intro hprefix
  obtain ⟨tail, htail⟩ := List.isPrefixOf_iff_prefix.1 hprefix
  exact hc (List.cons.inj htail).1.symm

/-- At the top a name without a dot is none of the free map. -/
theorem not_metadata_of_top (hkey : '.' ∉ key.toList) :
    ¬ "metadata.".toList.isPrefixOf (childPath "" key).toList := by
  intro hprefix
  obtain ⟨tail, htail⟩ := List.isPrefixOf_iff_prefix.1 hprefix
  refine hkey ?_
  show '.' ∈ (childPath "" key).toList
  rw [← htail]
  simp

end Rules

/-! ## Objects at a path -/

/-- The values reached above a member. -/
def valuesUnder (root : JsonObject) (path : String) : List JsonValue :=
  (pathSegments path).foldl stepInto [.object root]

/-- An object of a document, alone at its path, and walked under it. -/
structure Node (root : JsonObject) (path : String) (o : JsonObject) : Prop where
  values : valuesUnder root path = [.object o]
  walked : ∀ p ∈ walkMembers o path, p ∈ walkMembers root ""
  inOrder : (JsonValue.object o).InOrder
  undotted : Undotted (.object o)

section Node

variable {root o members : JsonObject} {path key : String} {v : JsonValue}

theorem Node.top (horder : (JsonValue.object root).InOrder) (hundotted : Undotted (.object root)) :
    Node root "" root :=
  ⟨rfl, fun _ h => h, horder, hundotted⟩

theorem valuesAt_childPath (h : '.' ∉ key.toList) :
    valuesAt root (childPath path key) = stepInto (valuesUnder root path) key.toList := by
  rw [valuesAt, dottedParts_childPath h, List.foldl_append]
  rfl

/-- The value of a member is the one value at its path. -/
theorem Node.valuesAt (h : Node root path o) (hkey : PlainKey key) :
    GpgFrontend.valuesAt root (childPath path key) = (o.value key).toList := by
  rw [valuesAt_childPath hkey.undotted, h.values, stepInto_plain hkey.single, List.flatMap_singleton]
  rfl

theorem Node.mem_walk (h : Node root path o) (hvalue : o.value key = some v) :
    childPath path key ∈ walkMembers root "" :=
  h.walked _ (childPath_mem_walk (JsonObject.mem_of_value hvalue))

theorem Node.child (h : Node root path o) (hkey : PlainKey key)
    (hvalue : o.value key = some (.object members)) :
    Node root (childPath path key) members := by
  have hmem := JsonObject.mem_of_value hvalue
  refine ⟨?_, fun p hp => h.walked p (walkValue_subset hmem p hp),
    (JsonValue.inOrder_object.1 h.inOrder).2 _ hmem, (undotted_object.1 h.undotted _ hmem).2⟩
  have hat := h.valuesAt hkey
  rw [hvalue] at hat
  rw [valuesUnder, pathSegments, if_neg (childPath_ne_empty hkey.nonempty)]
  exact hat

end Node

/-! ## Two documents at a path -/

section Both

variable {input output a b : JsonObject} {spec : ModuleExternalizeSpec} {path key : String}

/-- Two objects the contract compares. -/
structure Both (input output : JsonObject) (spec : ModuleExternalizeSpec) (path : String)
    (a b : JsonObject) : Prop where
  before : Node input path a
  after : Node output path b
  preserved : Preserved input output spec

theorem Both.child {ma mb : JsonObject} (h : Both input output spec path a b) (hkey : PlainKey key)
    (ha : a.value key = some (.object ma)) (hb : b.value key = some (.object mb)) :
    Both input output spec (childPath path key) ma mb :=
  ⟨h.before.child hkey ha, h.after.child hkey hb, h.preserved⟩

/-- A member of either object is compared. -/
theorem Both.checked (h : Both input output spec path a b)
    (hsome : a.value key ≠ none ∨ b.value key ≠ none) :
    checkPath input output spec (childPath path key) = .ok () := by
  refine h.preserved.walked _ ?_
  rcases hsome with ha | hb
  · obtain ⟨v, hv⟩ := Option.ne_none_iff_exists'.1 ha
    exact .inl (h.before.mem_walk hv)
  · obtain ⟨v, hv⟩ := Option.ne_none_iff_exists'.1 hb
    exact .inr (h.after.mem_walk hv)

theorem Both.value_eq (h : Both input output spec path a b) (hkey : PlainKey key)
    (hrule : ruleFor (childPath path key) = some .preserve) : a.value key = b.value key := by
  by_cases hsome : a.value key ≠ none ∨ b.value key ≠ none
  · have hcheck := h.checked hsome
    rw [checkPath, hrule] at hcheck
    have heq := require_eq_ok.1 hcheck
    rw [h.before.valuesAt hkey, h.after.valuesAt hkey] at heq
    cases ha : a.value key <;> cases hb : b.value key <;> simp_all
  · push Not at hsome
    rw [hsome.1, hsome.2]

/-- A container is in both documents or in neither. -/
theorem Both.isSome_eq (h : Both input output spec path a b) (hkey : PlainKey key)
    (hrule : ruleFor (childPath path key) = some .structural) :
    (a.value key).isSome = (b.value key).isSome := by
  by_cases hsome : a.value key ≠ none ∨ b.value key ≠ none
  · have hcheck := h.checked hsome
    rw [checkPath, hrule] at hcheck
    have heq := require_eq_ok.1 hcheck
    rw [h.before.valuesAt hkey, h.after.valuesAt hkey] at heq
    cases ha : a.value key <;> cases hb : b.value key <;> simp_all
  · push Not at hsome
    rw [hsome.1, hsome.2]

/-- Objects with the names the contract knows, and the same values under them. -/
theorem Both.eq_of_names (h : Both input output spec path a b) (names : List String)
    (ha : ∀ key v, a.value key = some v → key ∈ names)
    (hb : ∀ key v, b.value key = some v → key ∈ names)
    (hvalues : ∀ key ∈ names, a.value key = b.value key) : a = b := by
  refine JsonObject.ext_value (JsonValue.inOrder_object.1 h.before.inOrder).1
    (JsonValue.inOrder_object.1 h.after.inOrder).1 fun key => ?_
  by_cases hkey : key ∈ names
  · exact hvalues key hkey
  · have hna : a.value key = none := Option.eq_none_iff_forall_ne_some.2 fun v hv =>
      hkey (ha key v hv)
    have hnb : b.value key = none := Option.eq_none_iff_forall_ne_some.2 fun v hv =>
      hkey (hb key v hv)
    rw [hna, hnb]

end Both

/-! ## The objects the contract lists -/

section Listed

variable {input output root o a b : JsonObject} {spec : ModuleExternalizeSpec} {path key : String}
  {v : JsonValue}

/-- Where the free map is out of reach, a member has one of the names of the contract. -/
theorem Node.known (h : Node root path o) (hcovered : Covered root)
    (hmeta : ∀ {key : String}, '.' ∉ key.toList →
      ¬ "metadata.".toList.isPrefixOf (childPath path key).toList)
    {names : List String} (hnames : contractNames (pathSegments path) = names.map String.toList)
    (hvalue : o.value key = some v) : key ∈ names := by
  have hundotted := (undotted_object.1 h.undotted _ (JsonObject.mem_of_value hvalue)).1
  have hmem := mem_contractNames hundotted (hcovered.ruled _ (h.mem_walk hvalue)) (hmeta hundotted)
  rw [hnames] at hmem
  obtain ⟨name, hname, heq⟩ := List.mem_map.1 hmem
  obtain rfl : name = key := String.toList_inj.1 heq
  exact hname

/-- What makes a name one the contract preserves under a path. -/
def PreservedName (path key : String) : Prop :=
  key ≠ "" ∧ '.' ∉ key.toList ∧ "[]".toList.isSuffixOf key.toList = false ∧
    ruleFor (childPath path key) = some .preserve

instance (path key : String) : Decidable (PreservedName path key) :=
  inferInstanceAs (Decidable (_ ∧ _ ∧ _ ∧ _))

theorem Both.value_of_preservedName (h : Both input output spec path a b)
    (hkey : PreservedName path key) : a.value key = b.value key :=
  h.value_eq ⟨hkey.1, hkey.2.1, hkey.2.2.1⟩ hkey.2.2.2

/-- An object whose members are all preserved. -/
theorem Both.eq_of_preserved (h : Both input output spec path a b) (hinput : Covered input)
    (houtput : Covered output)
    (hmeta : ∀ {key : String}, '.' ∉ key.toList →
      ¬ "metadata.".toList.isPrefixOf (childPath path key).toList)
    (names : List String) (hnames : contractNames (pathSegments path) = names.map String.toList)
    (hrules : ∀ key ∈ names, PreservedName path key) : a = b :=
  h.eq_of_names names (fun _ _ hv => h.before.known hinput hmeta hnames hv)
    (fun _ _ hv => h.after.known houtput hmeta hnames hv)
    fun key hkey => h.value_of_preservedName (hrules key hkey)

/-- The objects all of whose members are preserved. -/
theorem contract_objects :
    ∀ row ∈ [("build", ["id", "timestamp", "source_commit"]), ("platform", ["os", "arch", "qt"]),
        ("entry_native.verification", ["mode", "value"])],
      contractNames (pathSegments row.1) = row.2.map String.toList ∧
        ∀ key ∈ row.2, PreservedName row.1 key := by
  decide +kernel

theorem Both.build_eq (h : Both input output spec "build" a b) (hinput : Covered input)
    (houtput : Covered output) : a = b :=
  h.eq_of_preserved hinput houtput
    (fun _ => not_metadata_of_head (rfl : "build".toList = 'b' :: "uild".toList) (by decide))
    ["id", "timestamp", "source_commit"] (contract_objects _ List.mem_cons_self).1
    (contract_objects _ List.mem_cons_self).2

theorem Both.platform_eq (h : Both input output spec "platform" a b) (hinput : Covered input)
    (houtput : Covered output) : a = b :=
  h.eq_of_preserved hinput houtput
    (fun _ => not_metadata_of_head (rfl : "platform".toList = 'p' :: "latform".toList) (by decide))
    ["os", "arch", "qt"] (contract_objects _ (List.mem_cons_of_mem _ List.mem_cons_self)).1
    (contract_objects _ (List.mem_cons_of_mem _ List.mem_cons_self)).2

theorem Both.verification_eq (h : Both input output spec "entry_native.verification" a b)
    (hinput : Covered input) (houtput : Covered output) : a = b :=
  have hrow := contract_objects ("entry_native.verification", ["mode", "value"])
    (List.mem_of_mem_getLast? rfl)
  h.eq_of_preserved hinput houtput
    (fun _ => not_metadata_of_head
      (rfl : "entry_native.verification".toList = 'e' :: "ntry_native.verification".toList)
      (by decide))
    ["mode", "value"] hrow.1 hrow.2

/-- The entry, whose verification is an object where there is one. -/
theorem Both.entry_eq (h : Both input output spec "entry_native" a b) (hinput : Covered input)
    (houtput : Covered output)
    (ha : ∀ v, a.value "verification" = some v → ∃ members, v = .object members)
    (hb : ∀ v, b.value "verification" = some v → ∃ members, v = .object members) : a = b := by
  have hmeta : ∀ {key : String}, '.' ∉ key.toList →
      ¬ "metadata.".toList.isPrefixOf (childPath "entry_native" key).toList := fun _ =>
    not_metadata_of_head (rfl : "entry_native".toList = 'e' :: "ntry_native".toList) (by decide)
  have hnames : contractNames (pathSegments "entry_native")
      = ["name", "verification", "size"].map String.toList := by decide +kernel
  refine h.eq_of_names ["name", "verification", "size"]
    (fun _ _ hv => h.before.known hinput hmeta hnames hv)
    (fun _ _ hv => h.after.known houtput hmeta hnames hv) fun key hkey => ?_
  have hplain : PlainKey "verification" := ⟨by decide, by decide, by decide +kernel⟩
  simp only [List.mem_cons, List.not_mem_nil, or_false] at hkey
  rcases hkey with rfl | rfl | rfl
  · exact h.value_of_preservedName (by decide +kernel)
  · have hsome := h.isSome_eq hplain (by decide +kernel)
    cases hva : a.value "verification" with
    | none =>
      rw [hva] at hsome
      exact (Option.not_isSome_iff_eq_none.1 (by rw [← hsome]; decide)).symm
    | some va =>
      rw [hva] at hsome
      obtain ⟨vb, hvb⟩ := Option.isSome_iff_exists.1 hsome.symm
      obtain ⟨ma, rfl⟩ := ha va hva
      obtain ⟨mb, rfl⟩ := hb vb hvb
      have hboth : Both input output spec "entry_native.verification" ma mb :=
        h.child hplain hva hvb
      rw [hvb, hboth.verification_eq hinput houtput]
  · exact h.value_of_preservedName (by decide +kernel)

end Listed

/-! ## The free map and the resources -/

section Free

variable {input output a b : JsonObject} {spec : ModuleExternalizeSpec} {path key : String}
  {v : JsonValue}

/-- What the contract says of the free map: two names of it are claims, and every other row that
could be meant preserves. -/
theorem contract_metadata :
    (∀ row ∈ externalizeContract, dottedParts row.1.toList = ["metadata".toList,
        (dottedParts row.1.toList).getLastD []] → row.2 = .preserve ∨
        (dottedParts row.1.toList).getLastD [] = moduleMetadataPublisher.toList ∨
        (dottedParts row.1.toList).getLastD [] = moduleMetadataPublisherUrl.toList) ∧
      (∀ row ∈ externalizeContract, ".*".toList.isSuffixOf row.1.toList = true →
        row.2 = .preserve) ∧
      ("metadata.*", ExternalizeDisposition.preserve) ∈ externalizeContract ∧
      ruleFor (childPath "metadata" "") = none ∧
      ∀ key ∈ [moduleMetadataPublisher, moduleMetadataPublisherUrl],
        ruleFor (childPath "metadata" key) = some .change := by
  decide +kernel

/-- A free name is preserved. -/
theorem ruleFor_metadata (hkey : '.' ∉ key.toList) (hnonempty : key ≠ "")
    (hpublisher : key ≠ moduleMetadataPublisher) (hurl : key ≠ moduleMetadataPublisherUrl) :
    ruleFor (childPath "metadata" key) = some .preserve := by
  have hpath : (childPath "metadata" key).toList = "metadata.".toList ++ key.toList := by
    rw [childPath, if_neg (by decide), String.toList_append, String.toList_append]
    rfl
  unfold ruleFor
  cases hfind : externalizeContract.find? fun row => row.1 = childPath "metadata" key with
  | some row =>
    have hrow := List.mem_of_find?_eq_some hfind
    have hname : row.1 = childPath "metadata" key := by simpa using List.find?_some hfind
    have hparts : dottedParts row.1.toList = ["metadata".toList, key.toList] := by
      rw [hname, dottedParts_childPath hkey]
      rfl
    have hcase := contract_metadata.1 row hrow
    rw [hparts] at hcase
    rcases hcase rfl with hrule | heq | heq
    · exact congrArg some hrule
    · exact absurd (String.toList_inj.1 heq) hpublisher
    · exact absurd (String.toList_inj.1 heq) hurl
  | none =>
    have hcovers : ∀ row ∈ externalizeContract, coversBelow row.1 (childPath "metadata" key) = true →
        row.2 = .preserve := by
      intro row hrow hcover
      unfold coversBelow at hcover
      simp only [Bool.and_eq_true] at hcover
      exact contract_metadata.2.1 row hrow hcover.1.1
    have hmem := contract_metadata.2.2.1
    have hcover : coversBelow "metadata.*" (childPath "metadata" key) = true := by
      have habove : "metadata.*".toList.dropLast = "metadata.".toList := by decide
      have hsuffix : ".*".toList.isSuffixOf "metadata.*".toList = true := by decide
      have hlength : 0 < key.toList.length := List.length_pos_iff.2 fun hnil =>
        hnonempty (String.toList_inj.1 hnil)
      rw [coversBelow, habove, hpath, hsuffix, List.length_append]
      simp only [Bool.true_and, Bool.and_eq_true, decide_eq_true_iff]
      exact ⟨by omega, List.isPrefixOf_iff_prefix.2 (List.prefix_append _ _)⟩
    cases hstar : externalizeContract.find? fun row => coversBelow row.1 (childPath "metadata" key) with
    | none =>
      have hno := List.find?_eq_none.1 hstar _ hmem
      exact absurd hcover hno
    | some row =>
      have hrow : coversBelow row.1 (childPath "metadata" key) = true := by
        simpa using List.find?_some hstar
      rw [Option.map_some, hcovers row (List.mem_of_find?_eq_some hstar) hrow]

variable {text : String}

/-- A claim is what it was asked to be, and was not there before. -/
theorem Both.claim_eq (h : Both input output spec "metadata" a b) (hkey : PlainKey key)
    (hclaim : (childPath "metadata" key, text) ∈ externalizeChanges spec)
    (hrule : ruleFor (childPath "metadata" key) = some .change) :
    a.value key = none ∧ b.value key = if text = "" then none else some (.string text) := by
  have hlookup : (externalizeChanges spec).lookup (childPath "metadata" key) = some text := by
    simp only [externalizeChanges, List.mem_cons, List.not_mem_nil, or_false, Prod.mk.injEq] at hclaim
    rcases hclaim with ⟨hpath, rfl⟩ | ⟨hpath, rfl⟩
    · rw [hpath, externalizeChanges]
      exact List.lookup_cons_self
    · rw [hpath, externalizeChanges]
      rfl
  have hcheck := h.preserved.claimed _ (List.mem_map_of_mem hclaim)
  rw [checkPath, hrule] at hcheck
  obtain ⟨hbefore, hafter⟩ := require_eq_ok.1 hcheck
  rw [h.before.valuesAt hkey] at hbefore
  rw [h.after.valuesAt hkey, hlookup, Option.getD_some] at hafter
  refine ⟨Option.toList_eq_nil_iff.1 hbefore, ?_⟩
  split
  · next hempty =>
    rw [if_pos hempty] at hafter
    exact Option.toList_eq_nil_iff.1 hafter
  · next hsome =>
    rw [if_neg hsome] at hafter
    exact Option.toList_eq_singleton_iff.1 hafter

variable {metadata : JsonObject}

theorem withClaim_value_self (h : metadata.value key = none) :
    (withClaim metadata key text).value key = if text = "" then none else some (.string text) := by
  unfold withClaim
  split
  · exact h
  · exact JsonObject.value_put_self _ _ _

theorem withClaim_value_ne {other : String} (h : other ≠ key) :
    (withClaim metadata key text).value other = metadata.value other := by
  unfold withClaim
  split
  · rfl
  · exact JsonObject.value_put_ne h

theorem sorted_withClaim (h : metadata.Pairwise fun a b => a.1 < b.1) :
    (withClaim metadata key text).Pairwise fun a b => a.1 < b.1 := by
  unfold withClaim
  split
  · exact h
  · exact sorted_put h

/-- The names of the free map are plain, as far as they are covered. -/
theorem Node.metadataKey {root o : JsonObject} (h : Node root "metadata" o) (hcovered : Covered root)
    (hmap : metadataOf root = o) (hvalue : o.value key = some v) : PlainKey key := by
  have hmem := JsonObject.mem_of_value hvalue
  obtain ⟨hdot, hbracket⟩ := hcovered.keys (key, v) (hmap ▸ hmem)
  refine ⟨?_, hdot, Bool.eq_false_iff.2 fun hsuffix => hbracket ?_⟩
  · rintro rfl
    have hrule := hcovered.ruled _ (h.mem_walk hvalue)
    rw [contract_metadata.2.2.2.1] at hrule
    cases hrule
  · obtain ⟨front, hfront⟩ := List.isSuffixOf_iff_suffix.1 hsuffix
    show '[' ∈ key.toList
    rw [← hfront]
    simp

/-- **The metadata is what it was, with the claims.** -/
theorem Both.metadata_eq (h : Both input output spec "metadata" a b) (hinput : Covered input)
    (houtput : Covered output) (ha : metadataOf input = a) (hb : metadataOf output = b) :
    b = withClaim (withClaim a moduleMetadataPublisher spec.publisherName)
      moduleMetadataPublisherUrl spec.publisherUrl := by
  have hpublisher : a.value moduleMetadataPublisher = none ∧ b.value moduleMetadataPublisher
      = if spec.publisherName = "" then none else some (.string spec.publisherName) := h.claim_eq
    ⟨by decide, by decide, rfl⟩ List.mem_cons_self
    (contract_metadata.2.2.2.2 _ List.mem_cons_self)
  have hurl : a.value moduleMetadataPublisherUrl = none ∧ b.value moduleMetadataPublisherUrl
      = if spec.publisherUrl = "" then none else some (.string spec.publisherUrl) := h.claim_eq
    ⟨by decide, by decide, rfl⟩ (List.mem_cons_of_mem _ List.mem_cons_self)
    (contract_metadata.2.2.2.2 _ (List.mem_cons_of_mem _ List.mem_cons_self))
  have hdiffer : moduleMetadataPublisher ≠ moduleMetadataPublisherUrl := by decide
  refine JsonObject.ext_value (JsonValue.inOrder_object.1 h.after.inOrder).1
    (sorted_withClaim (sorted_withClaim (JsonValue.inOrder_object.1 h.before.inOrder).1))
    fun key => ?_
  by_cases hkeyUrl : key = moduleMetadataPublisherUrl
  · subst hkeyUrl
    rw [hurl.2, withClaim_value_self ((withClaim_value_ne hdiffer.symm).trans hurl.1)]
  rw [withClaim_value_ne hkeyUrl]
  by_cases hkeyPublisher : key = moduleMetadataPublisher
  · subst hkeyPublisher
    rw [hpublisher.2, withClaim_value_self hpublisher.1]
  rw [withClaim_value_ne hkeyPublisher]
  by_cases hsome : a.value key ≠ none ∨ b.value key ≠ none
  · have hplain : PlainKey key := by
      rcases hsome with hva | hvb
      · obtain ⟨va, hva⟩ := Option.ne_none_iff_exists'.1 hva
        exact h.before.metadataKey hinput ha hva
      · obtain ⟨vb, hvb⟩ := Option.ne_none_iff_exists'.1 hvb
        exact h.after.metadataKey houtput hb hvb
    exact (h.value_eq hplain (ruleFor_metadata hplain.undotted hplain.nonempty hkeyPublisher
      hkeyUrl)).symm
  · push Not at hsome
    rw [hsome.1, hsome.2]

end Free

/-! ## What a parsed manifest says of its document -/

section Parsed

variable {strings : QtStrings} {root o : JsonObject} {m : ModuleManifest}

theorem takeObject_ok {key : String} {members : JsonObject} (h : takeObject o key = .ok members) :
    o.value key = some (.object members) := by
  unfold takeObject at h
  split at h
  · cases h
  · next heq => rw [heq, Except.ok.inj h]
  · cases h

theorem takeArray_ok {key : String} {items : List JsonValue} (h : takeArray o key = .ok items) :
    o.value key = some (.array items) := by
  unfold takeArray at h
  split at h
  · cases h
  · next heq => rw [heq, Except.ok.inj h]
  · cases h

theorem takeString_ok {key text : String} (h : takeString o key = .ok text) :
    ∃ v, o.value key = some v := by
  unfold takeString at h
  split at h
  · cases h
  · next v heq => exact ⟨v, heq⟩

/-- Each item of a list that is read whole is read. -/
theorem takeEach_forall {α : Type} {take : List α → JsonValue → Except String α}
    (items : List JsonValue) : ∀ {taken out : List α}, takeEach take items taken = .ok out →
      ∀ item ∈ items, ∃ before a, take before item = .ok a := by
  induction items with
  | nil => exact fun _ => List.forall_mem_nil _
  | cons item rest ih =>
    intro taken out h
    rw [takeEach, bind_eq_ok] at h
    obtain ⟨a, ha, hrest⟩ := h
    exact List.forall_mem_cons.2 ⟨⟨taken, a, ha⟩, ih hrest⟩

/-- Each resource is an object with a path and a digest. -/
theorem takeResource_ok {taken : List ModuleManifestResource} {item : JsonValue}
    {resource : ModuleManifestResource} (h : takeResource taken item = .ok resource) :
    ∃ (o : JsonObject) (path sha256 : JsonValue), item = .object o ∧ o.value "path" = some path ∧
      o.value "sha256" = some sha256 := by
  cases item with
  | object o =>
    simp only [takeResource, bind_eq_ok, within_eq_ok] at h
    obtain ⟨_, hpath, _, hsha, -⟩ := h
    obtain ⟨path, hpath⟩ := takeString_ok hpath
    obtain ⟨sha256, hsha⟩ := takeString_ok hsha
    exact ⟨o, path, sha256, rfl, hpath, hsha⟩
  | _ => cases h

/-- The containers of a parsed manifest. -/
structure Containers (root : JsonObject) : Prop where
  build : ∃ members, root.value "build" = some (.object members)
  platform : ∃ members, root.value "platform" = some (.object members)
  metadata : ∃ members, root.value "metadata" = some (.object members) ∧
    ∀ member ∈ members, ∃ text, member.2 = .string text
  entry : ∃ members : JsonObject, root.value "entry_native" = some (.object members) ∧
    ∀ v, members.value "verification" = some v → ∃ verification, v = .object verification
  resources : ∃ items, root.value "resources" = some (.array items) ∧
    ∀ item ∈ items, ∃ (o : JsonObject) (path sha256 : JsonValue), item = .object o ∧
      o.value "path" = some path ∧ o.value "sha256" = some sha256

theorem takeMetadataFrom_strings (members : JsonObject) :
    ∀ {metadata out : QMap String}, takeMetadataFrom members metadata = .ok out →
      ∀ member ∈ members, ∃ text, member.2 = .string text := by
  induction members with
  | nil => exact fun _ => List.forall_mem_nil _
  | cons member rest ih =>
    obtain ⟨key, v⟩ := member
    intro metadata out h
    rw [takeMetadataFrom] at h
    cases v with
    | string text => exact List.forall_mem_cons.2 ⟨⟨text, rfl⟩, ih h⟩
    | _ => cases h

theorem containers_of_manifest (h : ManifestOf strings root m) : Containers root := by
  obtain ⟨build, hbuild, -⟩ := h.build
  obtain ⟨platform, hplatform, -⟩ := h.platform
  obtain ⟨metadata, hmetadata, hstrings⟩ := bind_eq_ok.1 h.metadata
  obtain ⟨items, hitems, hread⟩ := bind_eq_ok.1 h.resources
  have hentry := h.entryNative
  simp only [takeEntryNative, bind_eq_ok, within_eq_ok] at hentry
  obtain ⟨entry, hobject, _, -, _, -, _, -, verification, hverified, -⟩ := hentry
  refine ⟨⟨build, takeObject_ok hbuild⟩, ⟨platform, takeObject_ok hplatform⟩,
    ⟨metadata, takeObject_ok hmetadata, takeMetadataFrom_strings _ hstrings⟩,
    ⟨entry, takeObject_ok hobject, fun v hv => ?_⟩,
    ⟨items, takeArray_ok hitems, fun item hitem => ?_⟩⟩
  · rw [takeEntryVerification, hv] at hverified
    cases v with
    | object members => exact ⟨members, rfl⟩
    | _ => cases hverified
  · obtain ⟨taken, resource, hresource⟩ := takeEach_forall items hread item hitem
    exact takeResource_ok hresource

end Parsed

/-! ## The resources -/

section Resources

variable {input output root : JsonObject} {spec : ModuleExternalizeSpec} {xs ys items : List JsonValue}

/-- The items of an array of resources, each of two members. -/
structure ResourceItems (root : JsonObject) (items : List JsonValue) : Prop where
  value : root.value "resources" = some (.array items)
  each : ∀ item ∈ items, ∃ path sha256,
    item = .object [("path", path), ("sha256", sha256)]
  walked : items ≠ [] → ∀ key ∈ ["path", "sha256"],
    childPath "resources[]" key ∈ walkMembers root ""

theorem resourceItems (h : Node root "" root) (hcovered : Covered root)
    (hvalue : root.value "resources" = some (.array items))
    (heach : ∀ item ∈ items, ∃ (o : JsonObject) (path sha256 : JsonValue), item = .object o ∧
      o.value "path" = some path ∧ o.value "sha256" = some sha256) : ResourceItems root items := by
  have hmem := JsonObject.mem_of_value hvalue
  have hin : ∀ o, JsonValue.object o ∈ items → ∀ p ∈ walkMembers o "resources[]",
      p ∈ walkMembers root "" := fun o ho p hp =>
    walkValue_subset hmem p (walkItems_subset ho p hp)
  refine ⟨hvalue, fun item hitem => ?_, fun hne key hkey => ?_⟩
  · obtain ⟨o, path, sha256, rfl, hpath, hsha⟩ := heach item hitem
    refine ⟨path, sha256, congrArg _ ?_⟩
    have horder := JsonValue.itemsInOrder_iff.1
      ((JsonValue.inOrder_object.1 h.inOrder).2 _ hmem) _ hitem
    have hundotted := undotted_array.1 (undotted_object.1 h.undotted _ hmem).2 _ hitem
    have hnames : "path" < "sha256" := by decide +kernel
    refine JsonObject.ext_value (JsonValue.inOrder_object.1 horder).1
      (List.pairwise_pair.2 hnames) fun key => ?_
    by_cases hkeyPath : key = "path"
    · subst hkeyPath
      exact hpath
    by_cases hkeySha : key = "sha256"
    · subst hkeySha
      exact hsha
    have hnone : o.value key = none := by
      refine Option.eq_none_iff_forall_ne_some.2 fun v hv => ?_
      have hname := JsonObject.mem_of_value hv
      have hdot := (undotted_object.1 hundotted _ hname).1
      have hpath : childPath "resources[]" key ∈ walkMembers o "resources[]" :=
        childPath_mem_walk hname
      have hrule := hcovered.ruled _ (hin o hitem _ hpath)
      have hknown := mem_contractNames hdot hrule (not_metadata_of_head
        (rfl : "resources[]".toList = 'r' :: "esources[]".toList) (by decide))
      have hnames : contractNames (pathSegments "resources[]")
          = ["path".toList, "sha256".toList] := by decide +kernel
      rw [hnames, List.mem_cons, List.mem_singleton] at hknown
      rcases hknown with heq | heq
      · exact hkeyPath (String.toList_inj.1 heq)
      · exact hkeySha (String.toList_inj.1 heq)
    rw [hnone, JsonObject.value, List.lookup_cons, List.lookup_cons, beq_false_of_ne hkeyPath,
      beq_false_of_ne hkeySha]
    rfl
  · obtain ⟨first, rest, rfl⟩ := List.exists_cons_of_ne_nil hne
    obtain ⟨o, path, sha256, rfl, hpath, hsha⟩ := heach first List.mem_cons_self
    refine hin o List.mem_cons_self _ ?_
    rcases List.mem_cons.1 hkey with rfl | hkey
    · exact childPath_mem_walk (JsonObject.mem_of_value hpath)
    · rw [List.mem_singleton.1 hkey]
      exact childPath_mem_walk (JsonObject.mem_of_value hsha)

/-- The values of a member, in every item. -/
theorem ResourceItems.valuesAt (h : ResourceItems root items) {key : String} (hkey : PlainKey key) :
    GpgFrontend.valuesAt root (childPath "resources[]" key)
      = items.flatMap fun item => (item.toObject.value key).toList := by
  have hexpand : stepInto [.object root] "resources[]".toList = items := by
    have hsuffix : "[]".toList.isSuffixOf "resources[]".toList = true := by decide +kernel
    have hfront : "resources[]".toList.take ("resources[]".toList.length - 2)
        = "resources".toList := by decide +kernel
    rw [stepInto]
    simp only [hsuffix, if_true, hfront, String.ofList_toList, List.flatMap_singleton]
    have hvalue : (JsonValue.object root).toObject.value "resources" = _ := h.value
    rw [hvalue]
    rfl
  have hunder : valuesUnder root "resources[]" = items := by
    have hsegments : pathSegments "resources[]" = ["resources[]".toList] := by decide +kernel
    rw [valuesUnder, hsegments, List.foldl_cons, List.foldl_nil, hexpand]
  rw [valuesAt_childPath hkey.undotted, hunder, stepInto_plain hkey.single]

/-- Lists of items with the same paths and the same digests are the same. -/
theorem items_eq (hx : ∀ item ∈ xs, ∃ path sha256,
      item = JsonValue.object [("path", path), ("sha256", sha256)]) :
    ∀ {ys : List JsonValue}, (∀ item ∈ ys, ∃ path sha256,
        item = JsonValue.object [("path", path), ("sha256", sha256)]) →
      (∀ key ∈ ["path", "sha256"], xs.flatMap (fun item => (item.toObject.value key).toList)
        = ys.flatMap fun item => (item.toObject.value key).toList) → xs = ys := by
  induction xs with
  | nil =>
    intro ys hy heq
    cases ys with
    | nil => rfl
    | cons item rest =>
      obtain ⟨path, sha256, rfl⟩ := hy item List.mem_cons_self
      cases heq "path" List.mem_cons_self
  | cons x xs ih =>
    intro ys hy heq
    obtain ⟨path, sha256, rfl⟩ := hx x List.mem_cons_self
    cases ys with
    | nil => cases heq "path" List.mem_cons_self
    | cons item rest =>
      obtain ⟨path', sha256', rfl⟩ := hy item List.mem_cons_self
      have hpath := List.cons.inj (heq "path" List.mem_cons_self)
      have hsha := List.cons.inj (heq "sha256" (List.mem_cons_of_mem _ List.mem_cons_self))
      obtain rfl : path = path' := hpath.1
      obtain rfl : sha256 = sha256' := hsha.1
      refine congrArg _ (ih (fun v hv => hx v (List.mem_cons_of_mem _ hv))
        (fun v hv => hy v (List.mem_cons_of_mem _ hv)) fun key hkey => ?_)
      rcases List.mem_cons.1 hkey with rfl | hkey
      · exact hpath.2
      · rw [List.mem_singleton.1 hkey]
        exact hsha.2

/-- The resources are what they were. -/
theorem resources_eq (hpreserved : Preserved input output spec) (hx : ResourceItems input xs)
    (hy : ResourceItems output ys) : xs = ys := by
  by_cases hne : xs ≠ [] ∨ ys ≠ []
  · refine items_eq hx.each hy.each fun key hkey => ?_
    have hplain : PlainKey key ∧ ruleFor (childPath "resources[]" key) = some .preserve := by
      rcases List.mem_cons.1 hkey with rfl | hkey
      · exact ⟨⟨by decide, by decide, by decide +kernel⟩, by decide +kernel⟩
      · rw [List.mem_singleton.1 hkey]
        exact ⟨⟨by decide, by decide, by decide +kernel⟩, by decide +kernel⟩
    have hcheck := hpreserved.walked _ (hne.imp (hx.walked · key hkey) (hy.walked · key hkey))
    rw [checkPath, hplain.2] at hcheck
    have heq := require_eq_ok.1 hcheck
    rw [hx.valuesAt hplain.1, hy.valuesAt hplain.1] at heq
    exact heq
  · push Not at hne
    rw [hne.1, hne.2]

end Resources

/-! ## The whole document -/

section Whole

variable {input output root : JsonObject} {spec : ModuleExternalizeSpec} {key : String}
  {v : JsonValue}

/-- The members of a manifest the contract preserves as they stand. -/
def preservedNames : List String :=
  ["schema_version", "id", "version", "sdk_abi", "min_host_version", "security_epoch",
    "capabilities", "events", "commands", "translation_context"]

/-- The members of a manifest the contract looks into. -/
def structuralNames : List String := ["build", "platform", "resources", "entry_native", "metadata"]

theorem top_known (h : Node root "" root) (hcovered : Covered root)
    (hvalue : root.value key = some v) : key ∈ preservedNames ++ structuralNames := by
  have hundotted := (undotted_object.1 h.undotted _ (JsonObject.mem_of_value hvalue)).1
  have hmem := mem_contractNames hundotted (hcovered.ruled _ (h.mem_walk hvalue))
    (not_metadata_of_top hundotted)
  have hnames : ∀ name ∈ contractNames (pathSegments ""),
      name ∈ (preservedNames ++ structuralNames).map String.toList := by decide +kernel
  obtain ⟨name, hname, heq⟩ := List.mem_map.1 (hnames _ hmem)
  obtain rfl : name = key := String.toList_inj.1 heq
  exact hname

theorem metadataOf_eq {members : JsonObject} (h : root.value "metadata" = some (.object members)) :
    metadataOf root = members := by
  rw [metadataOf, h]
  rfl

/-- **Where no name holds a dot, a document the checks pass is the one asked for.** -/
theorem externalized_of_checks (hinput : Covered input) (houtput : Covered output)
    (hpreserved : Preserved input output spec) (hin : Containers input) (hout : Containers output)
    (hbefore : Node input "" input) (hafter : Node output "" output) :
    output = externalizedDocument input spec := by
  have hboth : Both input output spec "" input output := ⟨hbefore, hafter, hpreserved⟩
  obtain ⟨metadata, hmetadata, -⟩ := hin.metadata
  obtain ⟨metadata', hmetadata', -⟩ := hout.metadata
  have hplain : ∀ key ∈ structuralNames, PlainKey key := by
    intro key hkey
    simp only [structuralNames, List.mem_cons, List.not_mem_nil, or_false] at hkey
    rcases hkey with rfl | rfl | rfl | rfl | rfl <;>
      exact ⟨by decide, by decide, by decide +kernel⟩
  refine JsonObject.ext_value (JsonValue.inOrder_object.1 hafter.inOrder).1
    (sorted_put (JsonValue.inOrder_object.1 hbefore.inOrder).1) fun key => ?_
  by_cases hkey : key = "metadata"
  · subst hkey
    have hmap : Both input output spec "metadata" metadata metadata' :=
      hboth.child (hplain _ (by decide)) hmetadata hmetadata'
    rw [externalizedDocument, JsonObject.value_put_self, hmetadata',
      hmap.metadata_eq hinput houtput (metadataOf_eq hmetadata) (metadataOf_eq hmetadata'),
      metadataOf_eq hmetadata]
  · rw [externalizedDocument, JsonObject.value_put_ne hkey]
    by_cases hknown : key ∈ preservedNames ++ structuralNames
    · rcases List.mem_append.1 hknown with hname | hname
      · have hrules : ∀ key ∈ preservedNames, PreservedName "" key := by decide +kernel
        exact (hboth.value_of_preservedName (hrules key hname)).symm
      · simp only [structuralNames, List.mem_cons, List.not_mem_nil, or_false] at hname
        rcases hname with rfl | rfl | rfl | rfl | rfl
        · obtain ⟨a, ha⟩ := hin.build
          obtain ⟨b, hb⟩ := hout.build
          have hbuild : Both input output spec "build" a b :=
            hboth.child (hplain _ (by decide)) ha hb
          rw [ha, hb, hbuild.build_eq hinput houtput]
        · obtain ⟨a, ha⟩ := hin.platform
          obtain ⟨b, hb⟩ := hout.platform
          have hplatform : Both input output spec "platform" a b :=
            hboth.child (hplain _ (by decide)) ha hb
          rw [ha, hb, hplatform.platform_eq hinput houtput]
        · obtain ⟨xs, hxs, hx⟩ := hin.resources
          obtain ⟨ys, hys, hy⟩ := hout.resources
          rw [hxs, hys, resources_eq hpreserved (resourceItems hbefore hinput hxs hx)
            (resourceItems hafter houtput hys hy)]
        · obtain ⟨a, ha, hva⟩ := hin.entry
          obtain ⟨b, hb, hvb⟩ := hout.entry
          have hentry : Both input output spec "entry_native" a b :=
            hboth.child (hplain _ (by decide)) ha hb
          rw [ha, hb, hentry.entry_eq hinput houtput hva hvb]
        · exact absurd rfl hkey
    · have hna : input.value key = none := Option.eq_none_iff_forall_ne_some.2 fun _ hv =>
        hknown (top_known hbefore hinput hv)
      have hnb : output.value key = none := Option.eq_none_iff_forall_ne_some.2 fun _ hv =>
        hknown (top_known hafter houtput hv)
      rw [hna, hnb]

end Whole

/-! ## The document that is built -/

section Built

variable {B : ModuleBuilder} {spec : ModuleDescriptorBuildSpec} {staged : List StagedResource}
  {entry root o : JsonObject} {key : String} {v : JsonValue}

theorem undotted_unitwiseName (h : '.' ∉ key.toList) : '.' ∉ (unitwise key).toList := by
  rw [unitwise, String.toList_ofList]
  intro hdot
  obtain ⟨c, hc, hin⟩ := List.mem_flatMap.1 hdot
  unfold unitwiseChar at hin
  split at hin
  · simp at hin
  · rw [List.mem_singleton] at hin
    exact h (hin ▸ hc)

mutual

/-- Writing and reading a value brings in no dot. -/
theorem Undotted.unitwise : (v : JsonValue) → Undotted v → Undotted v.unitwise
  | .null, _ => List.forall_mem_nil _
  | .bool _, _ => List.forall_mem_nil _
  | .number _, _ => undotted_number _
  | .string _, _ => undotted_string _
  | .array items, h => undotted_array.2 (undotted_itemsUnitwise items (undotted_array.1 h))
  | .object members, h => undotted_object.2 fun member hmember =>
      undotted_membersUnitwise members (undotted_object.1 h) member (mem_objectOf hmember)

theorem undotted_itemsUnitwise : (items : List JsonValue) → (∀ v ∈ items, Undotted v) →
    ∀ v ∈ itemsUnitwise items, Undotted v
  | [], _ => List.forall_mem_nil _
  | v :: rest, h => List.forall_mem_cons.2 ⟨Undotted.unitwise v (h v List.mem_cons_self),
      undotted_itemsUnitwise rest fun w hw => h w (List.mem_cons_of_mem _ hw)⟩

theorem undotted_membersUnitwise : (members : List (String × JsonValue)) →
    (∀ member ∈ members, '.' ∉ member.1.toList ∧ Undotted member.2) →
      ∀ member ∈ membersUnitwise members, '.' ∉ member.1.toList ∧ Undotted member.2
  | [], _ => List.forall_mem_nil _
  | (key, v) :: rest, h => List.forall_mem_cons.2
      ⟨⟨undotted_unitwiseName (h (key, v) List.mem_cons_self).1,
        Undotted.unitwise v (h (key, v) List.mem_cons_self).2⟩,
      undotted_membersUnitwise rest fun member hmember =>
        h member (List.mem_cons_of_mem _ hmember)⟩

end

theorem Undotted.put (h : Undotted (.object o)) (hkey : '.' ∉ key.toList) (hv : Undotted v) :
    Undotted (.object (o.put key v)) := by
  refine undotted_object.2 fun member hmember => ?_
  rcases mem_put hmember with rfl | hold
  · exact ⟨hkey, hv⟩
  · exact undotted_object.1 h member hold

theorem undotted_textObject {members : List (String × String)}
    (h : ∀ name ∈ members.map Prod.fst, '.' ∉ name.toList) :
    Undotted (.object (textObject members)) := by
  refine undotted_object.2 fun member hmember => ?_
  obtain ⟨m, hm, rfl⟩ := List.mem_map.1 (mem_objectOf hmember)
  exact ⟨h m.1 (List.mem_map_of_mem hm), undotted_string _⟩

theorem undotted_stringArray (texts : List String) : Undotted (stringArray texts) := by
  refine undotted_array.2 fun v hv => ?_
  obtain ⟨text, -, rfl⟩ := List.mem_map.1 hv
  exact undotted_string text

theorem undotted_entryObject (h : entryObject B spec = .ok entry) : Undotted (.object entry) := by
  have hname : Undotted (.object (textObject [("name", spec.entryNativeName)])) :=
    undotted_textObject (by decide : ∀ name ∈ ["name"], '.' ∉ name.toList)
  obtain ⟨-, ⟨-, rfl⟩ | ⟨mode, value, -, -, -, rfl⟩⟩ := entryObject_ok h
  · exact hname
  · have hverification : Undotted (.object (textObject
        [("mode", moduleEntryVerificationModeKey mode), ("value", value)])) :=
      undotted_textObject (by decide : ∀ name ∈ ["mode", "value"], '.' ∉ name.toList)
    have hbound := hname.put (by decide : '.' ∉ "verification".toList) hverification
    unfold boundEntry
    split
    · exact hbound.put (by decide) (undotted_number _)
    · exact hbound

/-- Of what is written, only the metadata has names that are not fixed. -/
theorem undotted_moduleManifestObject (hentry : Undotted (.object entry))
    {member : String × JsonValue} (h : member ∈ moduleManifestObject B spec staged entry) :
    '.' ∉ member.1.toList ∧ (member.1 ≠ "metadata" → Undotted member.2) := by
  unfold moduleManifestObject at h
  extract_lets first second third at h
  have hfirst : ∀ member ∈ first,
      '.' ∉ member.1.toList ∧ (member.1 ≠ "metadata" → Undotted member.2) := by
    intro member hmember
    have hin := mem_objectOf hmember
    have hnames : ∀ name ∈ ["schema_version", "id", "version", "sdk_abi", "min_host_version",
        "security_epoch", "capabilities", "metadata", "build", "platform", "resources", "events"],
        '.' ∉ name.toList := by decide
    refine ⟨hnames _ (List.mem_map_of_mem (f := Prod.fst) hin), fun hname => ?_⟩
    have hresources : Undotted (.array (staged.map fun resource =>
        .object (textObject [("path", resource.path), ("sha256", resource.digest)]))) := by
      refine undotted_array.2 fun v hv => ?_
      obtain ⟨resource, -, rfl⟩ := List.mem_map.1 hv
      exact undotted_textObject (by decide : ∀ name ∈ ["path", "sha256"], '.' ∉ name.toList)
    simp only [List.mem_cons, List.not_mem_nil, or_false] at hin
    rcases hin with rfl | rfl | rfl | rfl | rfl | rfl | rfl | rfl | rfl | rfl | rfl | rfl
    · exact undotted_number _
    · exact undotted_string _
    · exact undotted_string _
    · exact undotted_number _
    · exact undotted_string _
    · exact undotted_number _
    · exact undotted_stringArray _
    · exact absurd rfl hname
    · exact undotted_textObject
        (by decide : ∀ name ∈ ["id", "timestamp", "source_commit"], '.' ∉ name.toList)
    · exact undotted_textObject (by decide : ∀ name ∈ ["os", "arch", "qt"], '.' ∉ name.toList)
    · exact hresources
    · exact undotted_stringArray _
  have hlast : '.' ∉ "entry_native".toList ∧ '.' ∉ "translation_context".toList ∧
      '.' ∉ "commands".toList := by decide
  rcases mem_put h with rfl | h
  · exact ⟨hlast.1, fun _ => hentry⟩
  rcases mem_put h with rfl | h
  · exact ⟨hlast.2.1, fun _ => undotted_string _⟩
  simp only [second] at h
  split at h
  · exact hfirst member h
  rcases mem_put h with rfl | h
  · exact ⟨hlast.2.2, fun _ => undotted_stringArray _⟩
  · exact hfirst member h

/-- The metadata of a covered document has no dot in it. -/
theorem undotted_of_covered (horder : (JsonValue.object root).InOrder) (hcovered : Covered root)
    (hcontainers : Containers root)
    (hother : ∀ member ∈ root, '.' ∉ member.1.toList ∧
      (member.1 ≠ "metadata" → Undotted member.2)) : Undotted (.object root) := by
  obtain ⟨metadata, hmetadata, hstrings⟩ := hcontainers.metadata
  refine undotted_object.2 fun member hmember => ⟨(hother member hmember).1, ?_⟩
  by_cases hname : member.1 = "metadata"
  · have hvalue := JsonObject.value_of_mem (JsonValue.inOrder_object.1 horder).1 hmember
    rw [hname, hmetadata] at hvalue
    rw [← Option.some.inj hvalue]
    refine undotted_object.2 fun claim hclaim => ⟨?_, ?_⟩
    · exact (hcovered.keys claim (metadataOf_eq hmetadata ▸ hclaim)).1
    · obtain ⟨text, htext⟩ := hstrings claim hclaim
      rw [htext]
      exact undotted_string text
  · exact (hother member hmember).2 hname

end Built

/-! ## A run that succeeds -/

section Run

variable {E : ExternalizeMachine} {spec : ModuleExternalizeSpec} {result : ExternalizedModule}
  {host : ModuleHost} {origin : ModuleOrigin} {file : PackageFile} {bytes : Bytes}

/-- The document of the input. -/
def inputDocument (E : ExternalizeMachine) : JsonObject :=
  jsonObject E.builder.host (verifyModuleDescriptor E.builder.host E.descriptor).manifestBytes

/-- The document of what was published. -/
def outputDocument (E : ExternalizeMachine) (result : ExternalizedModule) : JsonObject :=
  jsonObject E.builder.host
    (verifyExternalModuleDescriptor E.builder.host (.content result.descriptor)).manifestBytes

theorem authenticated_of_ok (h : (readPackage host origin file).ok = true) :
    (readPackage host origin file).authenticated = true := by
  unfold readPackage at h ⊢
  split at h
  · cases h
  next hready =>
  rw [if_neg hready]
  cases file with
  | missing => cases h
  | unreadable => cases h
  | content bytes =>
    unfold readPackageBytes concludeVerification at h ⊢
    grind [DescriptorRefusal.verdict]

/-- A package that is verified has a document, and a manifest that was read from it. -/
theorem parsed_of_ok (h : (readPackage host origin file).ok = true) :
    ∃ root m, host.fromJson (readPackage host origin file).manifestBytes = .ok (.object root) ∧
      ManifestOf host.strings root m := by
  cases file with
  | missing => simp [readPackage] at h; split at h <;> cases h
  | unreadable => simp [readPackage] at h; split at h <;> cases h
  | content bytes =>
    obtain ⟨m, hvouched, hundeclared⟩ := authenticated_iff.1 (authenticated_of_ok h)
    have hparsed := (vouchedBy_of_vouched hvouched hundeclared).parsed
    obtain ⟨root, hroot, hmanifest⟩ := parseModuleManifest_ok hparsed
    exact ⟨root, m, hroot, hmanifest⟩

theorem jsonObject_eq {root : JsonObject} (h : host.fromJson bytes = .ok (.object root)) :
    jsonObject host bytes = root := by
  rw [jsonObject, h]
  rfl

/-- The input that goes on was verified, and covered. -/
theorem externalizeInput_ok {manifestBytes : Bytes} {input : ModuleManifest}
    (h : externalizeInput E spec = .ok (manifestBytes, input)) :
    (verifyModuleDescriptor E.builder.host E.descriptor).ok = true ∧
      manifestBytes = (verifyModuleDescriptor E.builder.host E.descriptor).manifestBytes ∧
      Covered (inputDocument E) := by
  unfold externalizeInput at h
  simp only [bind_eq_ok, require_eq_ok, within_eq_ok, pure_eq_ok, Prod.mk.injEq] at h
  obtain ⟨_, -, _, -, ⟨v, m, path⟩, hchecked, _, -, _, -, _, hcovered, _, -, rfl, -⟩ := h
  unfold verifyModuleNamespace at hchecked
  simp only [bind_eq_ok, require_eq_ok] at hchecked
  obtain ⟨_, -, _, hok, hrest⟩ := hchecked
  have hv : v = verifyModuleDescriptor E.builder.host E.descriptor := by
    split at hrest
    · cases hrest
    · simp only [bind_eq_ok, require_eq_ok] at hrest
      obtain ⟨_, -, hrest⟩ := hrest
      split at hrest
      · simp only [pure_eq_ok, Prod.mk.injEq] at hrest
        exact hrest.1.symm
      · cases hrest
  subst hv
  exact ⟨hok, rfl, covered_of_check hcovered⟩

/-- What was staged verifies, and passes the contract. -/
theorem externalizeSelfCheck_ok {publisherKey inputManifest : Bytes} {resources : QMap Bytes}
    {built : BuiltDescriptor} {m : ModuleManifest}
    (h : externalizeSelfCheck E spec publisherKey inputManifest resources built = .ok m) :
    let v := verifyExternalModuleDescriptor E.builder.host (.content built.file)
    v.ok = true ∧ Covered (jsonObject E.builder.host v.manifestBytes) ∧
      Preserved (jsonObject E.builder.host inputManifest)
        (jsonObject E.builder.host v.manifestBytes) spec := by
  unfold externalizeSelfCheck at h
  simp only [bind_eq_ok, require_eq_ok] at h
  obtain ⟨_, hok, _, -, _, -, h⟩ := h
  have hfile : stagedFile E built = .content built.file := by
    unfold stagedFile at hok ⊢
    split
    · rfl
    · next hunread =>
      rw [if_neg hunread] at hok
      simp [verifyExternalModuleDescriptor, readPackage] at hok
      split at hok <;> cases hok
  rw [hfile] at h hok
  split at h
  · cases h
  split at h
  · cases h
  simp only [bind_eq_ok, require_eq_ok] at h
  obtain ⟨_, hcovered, _, hpreserved, -⟩ := h
  exact ⟨hok, covered_of_check hcovered, preserved_of_check hpreserved⟩

/-- What a run that succeeds has checked. -/
structure Externalized (E : ExternalizeMachine) (spec : ModuleExternalizeSpec)
    (result : ExternalizedModule) : Prop where
  input : (verifyModuleDescriptor E.builder.host E.descriptor).ok = true
  inputCovered : Covered (inputDocument E)
  built : ∃ build built, buildModuleDescriptor E.builder build = .ok built ∧
    build.origin = .external ∧ built.file = result.descriptor
  output : (verifyExternalModuleDescriptor E.builder.host (.content result.descriptor)).ok = true
  outputCovered : Covered (outputDocument E result)
  preserved : Preserved (inputDocument E) (outputDocument E result) spec

theorem externalizeModule_ok (h : externalizeModule E spec = .ok result) :
    Externalized E spec result := by
  unfold externalizeModule at h
  simp only [bind_eq_ok, require_eq_ok] at h
  obtain ⟨_, -, h⟩ := h
  split at h
  · cases h
  simp only [bind_eq_ok, require_eq_ok, within_eq_ok] at h
  obtain ⟨_, -, _, -, ⟨inputManifest, input⟩, hinput, _, -, resources, -, _, -, h⟩ := h
  obtain ⟨hok, rfl, hcovered⟩ := externalizeInput_ok hinput
  split at h
  · cases h
  simp only [bind_eq_ok, require_eq_ok, pure_eq_ok] at h
  obtain ⟨sources, -, built, hbuilt, m, hself, _, -, rfl⟩ := h
  obtain ⟨houtput, hcovered', hpreserved⟩ := externalizeSelfCheck_ok hself
  exact ⟨hok, hcovered, ⟨_, built, hbuilt, rfl, rfl⟩, houtput, hcovered', hpreserved⟩

variable {build : ModuleDescriptorBuildSpec}

/-- The document of a built descriptor that verifies is the one that was written. -/
theorem document_of_built {B : ModuleBuilder} {built : BuiltDescriptor}
    (hbuilt : buildModuleDescriptor B build = .ok built) (hfrees : B.host.steps.frees = true)
    (hjson : ReadsJson B.host.fromJson (requestedText B build))
    (hstore : StoreOnly (B.host.readArchive built.file) (requestedMembers B build))
    (hok : (readPackage B.host origin (.content built.file)).ok = true) :
    ∃ entry, entryObject B build = .ok entry ∧
      B.host.fromJson (readPackage B.host origin (.content built.file)).manifestBytes
        = .ok (.object (objectOf (membersUnitwise
            (moduleManifestObject B build (requestedStaged B build) entry)))) := by
  have hfrom := builtFrom_of_ok hbuilt
  obtain ⟨m, hvouched, hundeclared⟩ := authenticated_iff.1 (authenticated_of_ok hok)
  have hsink := (walkPackage_built hfrom hfrees hstore).2 hvouched.read
  have hbytes : (readPackage B.host origin (.content built.file)).manifestBytes
      = utf8 (requestedText B build) := by
    have hauth : authenticate B.host origin (walkPackage B.host built.file).sink = .ok m :=
      authenticate_ok_iff.2 ⟨hvouched.shaped, hvouched.signed, hvouched.parsed, hvouched.declared,
        hundeclared⟩
    rw [readPackage_walked hvouched.ready hvouched.small hvouched.nonempty hvouched.read
      hvouched.hashed hvouched.known, (concludeVerification_ok hauth).2.2.1, hsink]
    rfl
  refine ⟨_, hfrom.entry, ?_⟩
  rw [hbytes, hjson _ (readJson_canonicalValue hfrom.text), requestedObject, JsonValue.unitwise]

/-- No name of a built document holds a dot, once it is covered. -/
theorem undotted_of_built {B : ModuleBuilder} {staged : List StagedResource}
    {entry root : JsonObject} (hentry : entryObject B build = .ok entry)
    (hroot : root = objectOf (membersUnitwise (moduleManifestObject B build staged entry)))
    (horder : (JsonValue.object root).InOrder) (hcovered : Covered root)
    (hcontainers : Containers root) : Undotted (.object root) := by
  refine undotted_of_covered horder hcovered hcontainers fun member hmember => ?_
  rw [hroot, objectOf_membersUnitwise plainNames_moduleManifestObject] at hmember
  obtain ⟨written, hwritten, rfl⟩ := List.mem_map.1 hmember
  obtain ⟨hname, hvalue⟩ :=
    undotted_moduleManifestObject (undotted_entryObject hentry) hwritten
  exact ⟨hname, fun hne => Undotted.unitwise _ (hvalue hne)⟩

/-- A member of an object that is none of the put one is still there. -/
theorem mem_put_of_mem {o : JsonObject} {key : String} {v : JsonValue} {member : String × JsonValue}
    (horder : o.Pairwise fun a b => a.1 < b.1) (hmember : member ∈ o) (hne : member.1 ≠ key) :
    member ∈ o.put key v := by
  refine JsonObject.mem_of_value ?_
  rw [JsonObject.value_put_ne hne]
  exact JsonObject.value_of_mem horder hmember

/-- **When externalizing changes only what its contract says.** The output document is that of the
input with the claims of the publisher, and no other member dropped, added or changed, exactly if
no member name of the input holds a dot: such a name is covered by the row of another field,
which is then what is compared. -/
theorem externalize_exact_iff (E : ExternalizeMachine) (spec : ModuleExternalizeSpec)
    (result : ExternalizedModule) (h : externalizeModule E spec = .ok result)
    (horder : ∀ bytes v, E.builder.host.fromJson bytes = .ok v → v.InOrder)
    (hfrees : E.builder.host.steps.frees = true)
    (hjson : ∀ build built, buildModuleDescriptor E.builder build = .ok built →
      ReadsJson E.builder.host.fromJson (requestedText E.builder build))
    (hstore : ∀ build file, E.builder.writeArchive (requestedMembers E.builder build) = some file →
      StoreOnly (E.builder.host.readArchive file) (requestedMembers E.builder build)) :
    outputDocument E result = externalizedDocument (inputDocument E) spec ↔
      Undotted (.object (inputDocument E)) := by
  have hrun := externalizeModule_ok h
  obtain ⟨input, mi, hinput, hmi⟩ := parsed_of_ok hrun.input
  obtain ⟨output, mo, houtput, hmo⟩ := parsed_of_ok hrun.output
  have hin : inputDocument E = input := jsonObject_eq hinput
  have hout : outputDocument E result = output := jsonObject_eq houtput
  have hcoveredIn := hin ▸ hrun.inputCovered
  have hcoveredOut := hout ▸ hrun.outputCovered
  have horderIn := horder _ _ hinput
  have horderOut := horder _ _ houtput
  have hundotted : Undotted (.object output) := by
    obtain ⟨build, built, hbuilt, -, hfile⟩ := hrun.built
    obtain ⟨entry, hentry, hdocument⟩ := document_of_built hbuilt hfrees (hjson build _ hbuilt)
      (hstore build _ (builtFrom_of_ok hbuilt).written) (hfile ▸ hrun.output)
    rw [hfile] at hdocument
    have hroot := JsonValue.object.inj (Except.ok.inj (houtput.symm.trans hdocument))
    exact undotted_of_built hentry hroot horderOut hcoveredOut (containers_of_manifest hmo)
  rw [hin, hout]
  constructor
  · intro heq
    refine undotted_of_covered horderIn hcoveredIn (containers_of_manifest hmi)
      fun member hmember => ?_
    by_cases hname : member.1 = "metadata"
    · rw [hname]
      exact ⟨by decide, fun hne => absurd rfl hne⟩
    · have hkept : member ∈ output := by
        rw [heq, externalizedDocument]
        exact mem_put_of_mem (JsonValue.inOrder_object.1 horderIn).1 hmember hname
      obtain ⟨hdot, hvalue⟩ := undotted_object.1 hundotted member hkept
      exact ⟨hdot, fun _ => hvalue⟩
  · intro hdots
    exact externalized_of_checks hcoveredIn hcoveredOut (hin ▸ hout ▸ hrun.preserved)
      (containers_of_manifest hmi) (containers_of_manifest hmo) (Node.top horderIn hdots)
      (Node.top horderOut hundotted)

end Run

/-! ## A machine that externalizes -/

/-- A character of one byte is that byte. -/
theorem utf8EncodeChar_ascii {c : Char} (h : ∀ byte ∈ String.utf8EncodeChar c, byte.toNat < 128) :
    (String.utf8EncodeChar c).map (fun byte => Char.ofNat byte.toNat) = [c] := by
  unfold String.utf8EncodeChar at h ⊢
  dsimp only at h ⊢
  split
  · next hsmall =>
    have hbyte : (UInt8.ofNat c.val.toNat).toNat = c.val.toNat := by
      rw [UInt8.toNat_ofNat', Nat.mod_eq_of_lt (by omega)]
    rw [List.map_singleton, hbyte]
    exact congrArg (fun d => [d]) (Char.ofNat_toNat c)
  -- the first byte of several is not below 0xc0
  · next hlarge =>
    rw [if_neg hlarge] at h
    split at h
    · have hhead := h _ List.mem_cons_self
      rw [UInt8.toNat_ofNat'] at hhead
      omega
    split at h
    · have hhead := h _ List.mem_cons_self
      rw [UInt8.toNat_ofNat'] at hhead
      omega
    · have hhead := h _ List.mem_cons_self
      rw [UInt8.toNat_ofNat'] at hhead
      omega

theorem utf8_ascii {text : List Char} (h : ∀ byte ∈ utf8 text, byte.toNat < 128) :
    (utf8 text).map (fun byte => Char.ofNat byte.toNat) = text := by
  induction text with
  | nil => rfl
  | cons c rest ih =>
    have happend : utf8 (c :: rest) = String.utf8EncodeChar c ++ utf8 rest := List.flatMap_cons
    rw [happend, List.forall_mem_append] at h
    rw [happend, List.map_append, utf8EncodeChar_ascii h.1, ih h.2]
    rfl

/-- A reader of JSON that takes nothing but ASCII. -/
def strictAsciiJson (bytes : Bytes) : Except String JsonValue :=
  if bytes.all (fun byte => byte.toNat < 128) = true then asciiJson bytes
  else .error "illegal value"

theorem strictAsciiJson_ok {bytes : Bytes} {v : JsonValue} (h : strictAsciiJson bytes = .ok v) :
    (∀ byte ∈ bytes, byte.toNat < 128) ∧
      readJson (bytes.map fun byte => Char.ofNat byte.toNat) = some v := by
  unfold strictAsciiJson asciiJson at h
  split at h
  · next hascii =>
    rw [List.all_eq_true] at hascii
    split at h
    · next hread =>
      exact ⟨fun byte hbyte => of_decide_eq_true (hascii byte hbyte),
        hread.trans (congrArg some (Except.ok.inj h))⟩
    · cases h
  · cases h

theorem readsJson_strictAscii {text : List Char} {v : JsonValue}
    (h : strictAsciiJson (utf8 text) = .ok v) : ReadsJson strictAsciiJson text := by
  obtain ⟨hascii, -⟩ := strictAsciiJson_ok h
  intro w hw
  have hall : (utf8 text).all (fun byte => byte.toNat < 128) = true :=
    List.all_eq_true.2 fun byte hbyte => decide_eq_true (hascii byte hbyte)
  rw [strictAsciiJson, if_pos hall, asciiJson, utf8_ascii hascii, hw]

def publisherSampleKey : Bytes := List.replicate 32 3

/-- The sample builder, with a publisher's seed beside that of the build. -/
def externalizeBuilder : ModuleBuilder :=
  { sampleBuilder with
    host :=
      { sampleBuilder.host with
        fromJson := strictAsciiJson
        verifyDetached := fun signature message key =>
          signature = lengthSignature message && (key = sampleKey || key = publisherSampleKey) }
    seedKeypair := fun seed =>
      if seed = List.replicate 32 8 then some (publisherSampleKey, [8]) else none
    writeArchive := fun members => if unpacks members then some (samplePack members) else none }

/-- The manifest of a module without resources, with a member put in. -/
def sampleModuleManifest (extra : Option (String × JsonValue)) : JsonObject :=
  let spec := { sampleSpec "a" "Sample" with resources := [] }
  let plain := moduleManifestObject sampleBuilder spec (requestedStaged sampleBuilder spec)
    ((entryObject sampleBuilder spec).toOption.getD [])
  match extra with
  | none => plain
  | some (key, v) => plain.put key v

/-- A machine that holds the sample module. -/
def sampleExternalize (extra : Option (String × JsonValue)) : ExternalizeMachine where
  builder := externalizeBuilder
  inputExists := true
  inputFile := none
  namespaceName := "org.sample"
  descriptor :=
    let manifest := utf8 ((canonicalValue (.object (sampleModuleManifest extra))).getD [])
    .content (samplePack [{ relativePath := moduleDescriptorManifestPath, bytes := manifest },
      { relativePath := moduleDescriptorSignaturePath, bytes := lengthSignature manifest }])
  directoryKey := id
  resolveEntry := fun _ _ _ => .resolved "entry.so"
  helpers := []
  insideByPath := false
  makesRoot := true
  insideOnDisk := false
  finalExists := false
  stagingExists := false
  makesStaging := true
  copiesNative := true
  outputRoot := "out"
  stagedNative := "entry.so"
  stagedDescriptor := "out/module.gfmodule"
  rereads := true
  publishes := true

def sampleExternalizeSpec : ModuleExternalizeSpec where
  input := "org.sample"
  publisherSeed := List.replicate 32 8
  outputRoot := "out"
  publisherName := "Publisher"
  publisherUrl := ""

/-- What the sample module holds under a name before and after, where it is published. -/
def publishesWith (extra : Option (String × JsonValue)) (key : String) :
    Option (Option JsonValue × Option JsonValue) :=
  (externalizeModule (sampleExternalize extra) sampleExternalizeSpec).toOption.map fun result =>
    ((inputDocument (sampleExternalize extra)).value key,
      (outputDocument (sampleExternalize extra) result).value key)

theorem publishesWith_some {extra : Option (String × JsonValue)} {key : String}
    {before after : Option JsonValue} (h : publishesWith extra key = some (before, after)) :
    ∃ result, externalizeModule (sampleExternalize extra) sampleExternalizeSpec = .ok result ∧
      (inputDocument (sampleExternalize extra)).value key = before ∧
      (outputDocument (sampleExternalize extra) result).value key = after := by
  unfold publishesWith at h
  cases hrun : externalizeModule (sampleExternalize extra) sampleExternalizeSpec with
  | error why =>
    rw [hrun] at h
    cases h
  | ok result =>
    rw [hrun] at h
    obtain ⟨hbefore, hafter⟩ := Prod.mk.inj (Option.some.inj h)
    exact ⟨result, rfl, hbefore, hafter⟩

/-- The sample module comes out as it went in, with the name of its publisher. -/
theorem externalize_exact_sample :
    ∃ result, externalizeModule (sampleExternalize none) sampleExternalizeSpec = .ok result ∧
      outputDocument (sampleExternalize none) result
        = externalizedDocument (inputDocument (sampleExternalize none)) sampleExternalizeSpec := by
  obtain ⟨result, hrun, -⟩ := publishesWith_some
    (by decide +kernel : publishesWith none "build.id" = some (none, none))
  have hundotted : ∀ name ∈ (JsonValue.object (inputDocument (sampleExternalize none))).names,
      '.' ∉ name.toList := by decide +kernel
  refine ⟨result, hrun, (externalize_exact_iff (sampleExternalize none) sampleExternalizeSpec result
    hrun (fun bytes v h => inOrder_readJson (strictAsciiJson_ok h).2) rfl
    (fun build built hbuilt => ?_) (fun build file hfile => ?_)).2 hundotted⟩
  · obtain ⟨m, hparsed⟩ := (builtFrom_of_ok hbuilt).parsed
    obtain ⟨root, hroot, -⟩ := parseModuleManifest_ok hparsed
    exact readsJson_strictAscii hroot
  · by_cases hunpacks : unpacks (requestedMembers externalizeBuilder build) = true
    · have hwritten : some (samplePack (requestedMembers externalizeBuilder build)) = some file :=
        (if_pos hunpacks).symm.trans hfile
      obtain rfl := Option.some.inj hwritten
      exact (storeOnly_of_unpacks hunpacks).2
    · have hnone : (none : Option Bytes) = some file := (if_neg hunpacks).symm.trans hfile
      cases hnone

/-- A member `build.id` at the top is covered by the row of the `id` in `build`, and is gone. -/
theorem dotted_member_dropped :
    ∃ result, externalizeModule (sampleExternalize (some ("build.id", .string "other")))
        sampleExternalizeSpec = .ok result ∧
      (inputDocument (sampleExternalize (some ("build.id", .string "other")))).value "build.id"
        = some (.string "other") ∧
      (outputDocument (sampleExternalize (some ("build.id", .string "other"))) result).value
        "build.id" = none := by
  exact publishesWith_some (by decide +kernel :
    publishesWith (some ("build.id", .string "other")) "build.id"
      = some (some (.string "other"), none))

end GpgFrontend
