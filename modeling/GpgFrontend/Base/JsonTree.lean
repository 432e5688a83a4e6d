import GpgFrontend.Base.JsonText

/-!
# JSON values as trees

- Equality of values is decidable.
-/

namespace GpgFrontend

/-! ## Equality -/

namespace JsonValue

mutual

/-- `QJsonValue::operator==`. -/
def same : JsonValue → JsonValue → Bool
  | .null, .null => true
  | .bool a, .bool b => a = b
  | .number a, .number b => a = b
  | .string a, .string b => a = b
  | .array a, .array b => sameItems a b
  | .object a, .object b => sameMembers a b
  | _, _ => false

def sameItems : List JsonValue → List JsonValue → Bool
  | [], [] => true
  | a :: as, b :: bs => same a b && sameItems as bs
  | _, _ => false

def sameMembers : List (String × JsonValue) → List (String × JsonValue) → Bool
  | [], [] => true
  | (ka, a) :: as, (kb, b) :: bs => ka = kb && same a b && sameMembers as bs
  | _, _ => false

end

mutual

theorem same_iff (a b : JsonValue) : same a b = true ↔ a = b := by
  cases a with
  | array xs =>
    cases b with
    | array ys => rw [same, sameItems_iff xs ys, array.injEq]
    | _ => simp [same]
  | object xs =>
    cases b with
    | object ys => rw [same, sameMembers_iff xs ys, object.injEq]
    | _ => simp [same]
  | _ => cases b <;> simp [same]

theorem sameItems_iff (a b : List JsonValue) : sameItems a b = true ↔ a = b := by
  match a, b with
  | [], [] => simp [sameItems]
  | [], _ :: _ => simp [sameItems]
  | _ :: _, [] => simp [sameItems]
  | x :: xs, y :: ys =>
    rw [sameItems, Bool.and_eq_true, same_iff x y, sameItems_iff xs ys, List.cons.injEq]

theorem sameMembers_iff (a b : List (String × JsonValue)) : sameMembers a b = true ↔ a = b := by
  match a, b with
  | [], [] => simp [sameMembers]
  | [], _ :: _ => simp [sameMembers]
  | _ :: _, [] => simp [sameMembers]
  | (kx, x) :: xs, (ky, y) :: ys =>
    rw [sameMembers, Bool.and_eq_true, Bool.and_eq_true, same_iff x y, sameMembers_iff xs ys,
      decide_eq_true_iff, List.cons.injEq, Prod.mk.injEq]

end

instance : DecidableEq JsonValue := fun a b => decidable_of_iff _ (same_iff a b)

/-! ## Order -/

mutual

/-- Objects have their members in order, at every depth. -/
def InOrder : JsonValue → Prop
  | .array items => ItemsInOrder items
  | .object members => (members.Pairwise fun a b => a.1 < b.1) ∧ MembersInOrder members
  | _ => True

def ItemsInOrder : List JsonValue → Prop
  | [] => True
  | v :: rest => v.InOrder ∧ ItemsInOrder rest

def MembersInOrder : List (String × JsonValue) → Prop
  | [] => True
  | member :: rest => member.2.InOrder ∧ MembersInOrder rest

end

theorem itemsInOrder_iff {items : List JsonValue} :
    ItemsInOrder items ↔ ∀ v ∈ items, v.InOrder := by
  induction items with
  | nil => simp [ItemsInOrder]
  | cons v rest ih => rw [ItemsInOrder, ih, List.forall_mem_cons]

theorem membersInOrder_iff {members : List (String × JsonValue)} :
    MembersInOrder members ↔ ∀ member ∈ members, member.2.InOrder := by
  induction members with
  | nil => simp [MembersInOrder]
  | cons member rest ih => rw [MembersInOrder, ih, List.forall_mem_cons]

theorem inOrder_object {members : JsonObject} :
    (JsonValue.object members).InOrder ↔
      (members.Pairwise fun a b => a.1 < b.1) ∧ ∀ member ∈ members, member.2.InOrder := by
  rw [InOrder, membersInOrder_iff]

end JsonValue

namespace JsonObject

variable {o other : JsonObject} {key : String} {v : JsonValue}

theorem mem_of_value (h : o.value key = some v) : (key, v) ∈ o := by
  obtain ⟨before, after, rfl, -⟩ := List.lookup_eq_some_iff.1 h
  exact List.mem_append_right before List.mem_cons_self

/-- In an object in order a member is the value of its name. -/
theorem value_of_mem (hsorted : o.Pairwise fun a b => a.1 < b.1) (h : (key, v) ∈ o) :
    o.value key = some v :=
  (QMap.lookup_eq_some_iff hsorted).2 h

/-- **Objects in order with the same values are the same.** -/
theorem ext_value (ho : o.Pairwise fun a b => a.1 < b.1)
    (hother : other.Pairwise fun a b => a.1 < b.1)
    (h : ∀ key, o.value key = other.value key) : o = other :=
  congrArg QMap.entries (@QMap.ext_value _ ⟨o, ho⟩ ⟨other, hother⟩ h)

end JsonObject

/-! ## What is read is in order -/

theorem inOrder_objectOf {members : List (String × JsonValue)}
    (h : ∀ member ∈ members, member.2.InOrder) : (JsonValue.object (objectOf members)).InOrder :=
  JsonValue.inOrder_object.2 ⟨sorted_objectOf, fun member hmember => h member (mem_objectOf hmember)⟩

theorem inOrder_readNumber {s rest : List Char} {v : JsonValue} (h : readNumber s = some (v, rest)) :
    v.InOrder := by
  unfold readNumber at h
  extract_lets negative s digits rest' n at h
  split at h
  · cases h
  · rw [← (Prod.mk.inj (Option.some.inj h)).1]
    trivial

/-- By induction on the fuel: what each of the three readers yields is in order. -/
theorem inOrder_read (fuel : Nat) :
    (∀ {s rest v}, readValue fuel s = some (v, rest) → v.InOrder) ∧
    (∀ {s rest items}, readItems fuel s = some (items, rest) → ∀ v ∈ items, v.InOrder) ∧
    (∀ {s rest members}, readMembers fuel s = some (members, rest) →
      ∀ member ∈ members, member.2.InOrder) := by
  induction fuel with
  | zero =>
    refine ⟨fun h => ?_, fun h => ?_, fun h => ?_⟩ <;> cases h
  | succ fuel ih =>
    obtain ⟨hvalue, hitems, hmembers⟩ := ih
    refine ⟨?_, ?_, ?_⟩
    · intro s rest v h
      cases s with
      | nil => cases h
      | cons c tail =>
        rw [readValue] at h
        split at h
        · -- a string
          obtain ⟨read, -, heq⟩ := Option.map_eq_some_iff.1 h
          rw [← (Prod.mk.inj heq).1]
          trivial
        split at h
        · -- an array
          split at h
          · rw [← (Prod.mk.inj (Option.some.inj h)).1]
            trivial
          · obtain ⟨read, hread, heq⟩ := Option.map_eq_some_iff.1 h
            rw [← (Prod.mk.inj heq).1]
            exact JsonValue.itemsInOrder_iff.2 (hitems hread)
        split at h
        · -- an object
          split at h
          · rw [← (Prod.mk.inj (Option.some.inj h)).1]
            exact ⟨List.Pairwise.nil, trivial⟩
          · obtain ⟨read, hread, heq⟩ := Option.map_eq_some_iff.1 h
            rw [← (Prod.mk.inj heq).1]
            exact inOrder_objectOf (hmembers hread)
        iterate 3
          split at h
          · split at h
            · rw [← (Prod.mk.inj (Option.some.inj h)).1]
              trivial
            · cases h
        exact inOrder_readNumber h
    · intro s rest items h v hv
      rw [readItems] at h
      cases hread : readValue fuel s with
      | none => rw [hread] at h; cases h
      | some read =>
        rw [hread] at h
        dsimp only at h
        split at h
        · obtain ⟨later, hlater, heq⟩ := Option.map_eq_some_iff.1 h
          obtain ⟨rfl, rfl⟩ := Prod.mk.inj heq
          rcases List.mem_cons.1 hv with rfl | hrest
          · exact hvalue hread
          · exact hitems hlater v hrest
        split at h
        · obtain ⟨rfl, rfl⟩ := Prod.mk.inj (Option.some.inj h)
          rw [List.mem_singleton.1 hv]
          exact hvalue hread
        · cases h
    · intro s rest members h member hmember
      rw [readMembers] at h
      split at h
      · cases hkey : readChars s.tail with
        | none => rw [hkey] at h; cases h
        | some key =>
          rw [hkey] at h
          dsimp only at h
          split at h
          · cases hread : readValue fuel key.2.tail with
            | none => rw [hread] at h; cases h
            | some read =>
              rw [hread] at h
              dsimp only at h
              split at h
              · obtain ⟨later, hlater, heq⟩ := Option.map_eq_some_iff.1 h
                obtain ⟨rfl, rfl⟩ := Prod.mk.inj heq
                rcases List.mem_cons.1 hmember with rfl | hrest
                · exact hvalue hread
                · exact hmembers hlater member hrest
              split at h
              · obtain ⟨rfl, rfl⟩ := Prod.mk.inj (Option.some.inj h)
                rw [List.mem_singleton.1 hmember]
                exact hvalue hread
              · cases h
          · cases h
      · cases h

theorem inOrder_readJson {text : List Char} {v : JsonValue} (h : readJson text = some v) :
    v.InOrder := by
  unfold readJson at h
  split at h
  · next heq =>
    obtain rfl := Option.some.inj h
    exact (inOrder_read _).1 heq
  · cases h

/-! ## Names -/

namespace JsonValue

mutual

/-- The names of all members in a value, at any depth. -/
def names : JsonValue → List String
  | .array items => itemNames items
  | .object members => memberNames members
  | _ => []

def itemNames : List JsonValue → List String
  | [] => []
  | v :: rest => v.names ++ itemNames rest

def memberNames : List (String × JsonValue) → List String
  | [] => []
  | member :: rest => member.1 :: (member.2.names ++ memberNames rest)

end

theorem mem_itemNames {name : String} {items : List JsonValue} :
    name ∈ itemNames items ↔ ∃ v ∈ items, name ∈ v.names := by
  induction items with
  | nil => simp [itemNames]
  | cons v rest ih => rw [itemNames, List.mem_append, ih, List.exists_mem_cons_iff]

theorem mem_memberNames {name : String} {members : JsonObject} :
    name ∈ memberNames members ↔
      ∃ member ∈ members, name = member.1 ∨ name ∈ member.2.names := by
  induction members with
  | nil => simp [memberNames]
  | cons member rest ih =>
    rw [memberNames, List.mem_cons, List.mem_append, ih, List.exists_mem_cons_iff, or_assoc]

end JsonValue

end GpgFrontend
