import EntityQuery.Proofs.Outcome
import EntityQuery.Proofs.Value.Paths

/-! # Values written at several paths

Values written at paths that lie apart leave each other as they are, and the order in which they are
written leaves no trace. In an object that was empty there is nothing else then but the objects on
the way, and these have their names in order. The object of a composite result comes about like
this.
-/

namespace EntityQuery

namespace Keyed

variable {α : Type}

theorem insert_insert (entries : Keyed α) (key : String) (old new : α) :
    insert (insert entries key old) key new = insert entries key new := by
  induction entries with
  | nil => simp [insert]
  | cons entry rest ih =>
      obtain ⟨name, first⟩ := entry
      by_cases earlier : key < name
      · simp [insert, earlier]
      · by_cases same : name = key
        · simp [insert, same]
        · simp [insert, earlier, same, ih]

/-- Values of different names are written in either order. -/
theorem insert_comm (entries : Keyed α) {key other : String} (different : key ≠ other)
    (v w : α) :
    insert (insert entries key v) other w = insert (insert entries other w) key v := by
  induction entries with
  | nil => grind [insert]
  | cons entry rest ih =>
      obtain ⟨name, first⟩ := entry
      grind [insert]

/-- The names are in order, each of them once. -/
def Ascending (entries : Keyed α) : Prop := (names entries).Pairwise (· < ·)

theorem ascending_nil : Ascending ([] : Keyed α) := .nil

theorem mem_names_insert {entries : Keyed α} {name key : String} {value : α}
    (member : name ∈ names (insert entries key value)) : name = key ∨ name ∈ names entries := by
  by_cases same : name = key
  · exact .inl same
  · right
    refine Decidable.byContradiction fun unknown => get?_eq_none_iff.mp ?_ member
    rw [get?_insert, if_neg (Ne.symm same)]
    exact get?_eq_none_iff.mpr unknown

theorem Ascending.insert {entries : Keyed α} (ascending : Ascending entries) (key : String)
    (value : α) : Ascending (insert entries key value) := by
  induction entries with
  | nil => exact List.pairwise_singleton _ _
  | cons entry rest ih =>
      obtain ⟨name, first⟩ := entry
      obtain ⟨below, later⟩ := List.pairwise_cons.mp ascending
      rw [Keyed.insert]
      split
      · next earlier =>
        refine List.pairwise_cons.mpr ⟨?_, ascending⟩
        intro other inside
        rcases List.mem_cons.mp inside with rfl | inside
        · exact earlier
        · exact String.lt_trans earlier (below other inside)
      · next notEarlier =>
        split
        · next same =>
          subst same
          exact ascending
        · next different =>
          refine List.pairwise_cons.mpr ⟨?_, ih later⟩
          intro other inside
          rcases mem_names_insert inside with rfl | inside
          · exact Std.lt_of_le_of_ne (String.not_lt.mp notEarlier) different
          · exact below other inside

theorem objectAt_insert (fields inner : Fields) (name : String) :
    objectAt (insert fields name (.object inner)) name = inner := by
  rw [objectAt, get?_insert, if_pos rfl]

theorem objectAt_insert_of_ne (fields : Fields) {name other : String} (v : Value)
    (different : other ≠ name) : objectAt (insert fields other v) name = objectAt fields name := by
  simp only [objectAt, get?_insert, if_neg different]

end Keyed

section Placing

/-- Writing at a path touches the first of its names only, and sees no other one. -/
theorem placeAt_cons (name : String) (rest : AttributePath) (v : Value) :
    ∃ within : Fields → Value,
      (∀ fields, placeAt fields (name :: rest) v = Keyed.insert fields name (within fields)) ∧
      ∀ fields other w, other ≠ name → within (Keyed.insert fields other w) = within fields := by
  cases rest with
  | nil => exact ⟨fun _ => v, fun _ => rfl, fun _ _ _ _ => rfl⟩
  | cons next rest =>
      refine ⟨fun fields => .object (placeAt (Keyed.objectAt fields name) (next :: rest) v),
        fun fields => placeAt_through fields name next rest v, ?_⟩
      intro fields other w different
      simp only [Keyed.objectAt_insert_of_ne fields w different]

/-- Values are written at paths that lie apart in either order. -/
theorem placeAt_comm (fields : Fields) {path other : AttributePath} (apart : Apart path other)
    (v w : Value) :
    placeAt (placeAt fields path v) other w = placeAt (placeAt fields other w) path v := by
  induction path generalizing fields other with
  | nil => exact absurd List.nil_prefix apart.1
  | cons name rest ih =>
      cases other with
      | nil => exact absurd List.nil_prefix apart.2
      | cons first more =>
          by_cases same : name = first
          · subst same
            have inside : Apart rest more := apart.of_cons
            cases rest with
            | nil => exact absurd List.nil_prefix inside.1
            | cons next rest =>
                cases more with
                | nil => exact absurd List.nil_prefix inside.2
                | cons second more =>
                    simp only [placeAt_through, Keyed.objectAt_insert, Keyed.insert_insert]
                    rw [ih _ inside]
          · -- Here the paths part, so the values go to two entries of one object.
            obtain ⟨within, places, sees⟩ := placeAt_cons name rest v
            obtain ⟨within', places', sees'⟩ := placeAt_cons first more w
            rw [places, places', places', places, sees _ _ _ (Ne.symm same), sees' _ _ _ same]
            exact Keyed.insert_comm fields same _ _

namespace Value

theorem at?_append (v : Value) (path rest : List String) :
    v.at? (path ++ rest) = (v.at? path).bind (·.at? rest) :=
  List.foldlM_append

theorem at?_empty {path : List String} (proper : path ≠ []) : (object []).at? path = none := by
  cases path with
  | nil => exact absurd rfl proper
  | cons name rest => rfl

theorem at?_of_objectAt {fields : Fields} {name : String} {more : List String} {v : Value}
    (found : (object (Keyed.objectAt fields name)).at? more = some v) :
    (object fields).at? (name :: more) = some v ∨ v = .object [] := by
  cases more with
  | nil =>
      cases found
      rw [Keyed.objectAt]
      split
      · next inner held =>
        left
        rw [at?_cons, held]
        rfl
      · exact .inr rfl
  | cons next more => exact .inl (at?_objectAt fields name next more ▸ found)

/-- Only objects lead further. -/
theorem at?_on {v inner : Value} {path rest : List String} (proper : rest ≠ [])
    (leads : v.at? (path ++ rest) = some inner) : ∃ fields, v.at? path = some (.object fields) := by
  rw [at?_append] at leads
  obtain ⟨middle, found, further⟩ := Option.bind_eq_some_iff.mp leads
  cases rest with
  | nil => exact absurd rfl proper
  | cons name rest =>
      cases middle with
      | object fields => exact ⟨fields, found⟩
      | null | bool b | int i | float x | string s | array items => cases further

/-- An object that is not inside of what is written has its names in order as before. -/
theorem ascending_placeAt {fields : Fields} {path other : AttributePath} (v : Value)
    (outside : ¬ path <+: other)
    (ascending : ∀ inner, (object fields).at? other = some (.object inner) → Keyed.Ascending inner)
    {inner : Fields} (found : (object (placeAt fields path v)).at? other = some (.object inner)) :
    Keyed.Ascending inner := by
  induction other generalizing fields path with
  | nil =>
      cases path with
      | nil => exact absurd List.nil_prefix outside
      | cons name rest =>
          cases found
          obtain ⟨within, places, -⟩ := placeAt_cons name rest v
          rw [places]
          exact (ascending fields rfl).insert _ _
  | cons first more ih =>
      cases path with
      | nil => exact absurd List.nil_prefix outside
      | cons name rest =>
          by_cases same : name = first
          · subst same
            cases rest with
            | nil => exact absurd (List.prefix_append [name] more) outside
            | cons next rest =>
                rw [placeAt_through, at?_cons, Keyed.get?_insert, if_pos rfl] at found
                refine ih (fun inside => outside ?_) ?_ found
                · exact List.cons_prefix_cons.mpr ⟨rfl, inside⟩
                · intro inner held
                  rcases at?_of_objectAt held with there | empty
                  · exact ascending inner there
                  · cases empty
                    exact Keyed.ascending_nil
          · rw [at?_placeAt_apart fields v (apart_of_ne rest more same)] at found
            exact ascending inner found

end Value

end Placing

section Several

variable {writes : List (AttributePath × Value)}

/-- Values written at their paths, one after the other. -/
def placeEach (writes : List (AttributePath × Value)) (fields : Fields) : Fields :=
  writes.foldl (fun fields write => placeAt fields write.1 write.2) fields

@[simp] theorem placeEach_cons (write : AttributePath × Value)
    (rest : List (AttributePath × Value)) (fields : Fields) :
    placeEach (write :: rest) fields = placeEach rest (placeAt fields write.1 write.2) := rfl

/-- Values written at paths that lie apart are found there, and nothing else changes. -/
theorem Value.at?_placeEach (writes : List (AttributePath × Value)) (fields : Fields)
    (apart : writes.Pairwise fun a b => Apart a.1 b.1) (proper : ∀ write ∈ writes, write.1 ≠ []) :
    (∀ write ∈ writes, (object (placeEach writes fields)).at? write.1 = some write.2) ∧
      ∀ other, (∀ write ∈ writes, Apart write.1 other) →
        (object (placeEach writes fields)).at? other = (object fields).at? other := by
  induction writes generalizing fields with
  | nil => exact ⟨fun write inside => absurd inside List.not_mem_nil, fun other _ => rfl⟩
  | cons first rest ih =>
      obtain ⟨away, restApart⟩ := List.pairwise_cons.mp apart
      obtain ⟨others, kept⟩ := ih (placeAt fields first.1 first.2) restApart
        fun write inside => proper write (List.mem_cons_of_mem _ inside)
      simp only [placeEach_cons]
      constructor
      · intro write inside
        rcases List.mem_cons.mp inside with rfl | later
        · -- What is written later lies apart from this value.
          rw [kept write.1 fun later inside => (away later inside).symm]
          exact at?_placeAt fields write.2 (proper write List.mem_cons_self)
        · exact others write later
      · intro other outside
        rw [kept other fun write inside => outside write (List.mem_cons_of_mem _ inside)]
        exact at?_placeAt_apart fields first.2 (outside first List.mem_cons_self)

/-- The order in which values are written at paths that lie apart leaves no trace. -/
theorem placeEach_perm {writes' : List (AttributePath × Value)} (same : writes.Perm writes')
    (apart : writes.Pairwise fun a b => Apart a.1 b.1) (fields : Fields) :
    placeEach writes fields = placeEach writes' fields := by
  induction same generalizing fields with
  | nil => rfl
  | cons write _ ih => exact ih (List.pairwise_cons.mp apart).2 _
  | swap write write' rest =>
      obtain ⟨away, -⟩ := List.pairwise_cons.mp apart
      simp only [placeEach_cons]
      rw [placeAt_comm fields (away write List.mem_cons_self)]
  | trans before _ ih ih' =>
      rw [ih apart, ih' (before.pairwise apart fun away => away.symm)]

/-- The objects on the way to what is written have their names in order. -/
theorem Value.ascending_placeEach {fields inner : Fields} {other : AttributePath}
    (outside : ∀ write ∈ writes, ¬ write.1 <+: other)
    (ascending : ∀ inner, (object fields).at? other = some (.object inner) →
      Keyed.Ascending inner)
    (found : (object (placeEach writes fields)).at? other = some (.object inner)) :
    Keyed.Ascending inner := by
  induction writes generalizing fields with
  | nil => exact ascending inner found
  | cons first rest ih =>
      refine ih (fun write inside => outside write (List.mem_cons_of_mem _ inside)) ?_ found
      intro inner held
      exact ascending_placeAt first.2 (outside first List.mem_cons_self) ascending held

end Several

section Composite

variable {buffer : List Value} {fields : List ResultField}

/-- The value of a field, null where it cannot be read, and where it is written. -/
def ResultField.written (buffer : List Value) (field : ResultField) : AttributePath × Value :=
  (field.path, (readSlot buffer field.index field.converter).toOption.getD .null)

theorem ResultField.readSlot_eq {field : ResultField}
    (readable : Succeeds (readSlot buffer field.index field.converter)) :
    readSlot buffer field.index field.converter = .ok (field.written buffer).2 := by
  obtain ⟨v, read⟩ := readable
  rw [written, read]
  rfl

theorem assembleFields_readable
    (readable : ∀ field ∈ fields, Succeeds (readSlot buffer field.index field.converter))
    (object : Fields) :
    assembleFields buffer fields object =
      .ok (placeEach (fields.map (·.written buffer)) object) := by
  induction fields generalizing object with
  | nil => rfl
  | cons field rest ih =>
      rw [assembleFields, ResultField.readSlot_eq (readable field List.mem_cons_self), ok_bind]
      exact ih (fun other inside => readable other (List.mem_cons_of_mem _ inside)) _

/-- The path ends before that of a field does. -/
def OnTheWay (fields : List ResultField) (path : AttributePath) : Prop :=
  path = [] ∨ ∃ field ∈ fields, ∃ name rest, field.path = path ++ name :: rest

/-- The object holds the value of every field where the path of the field leads, and but for these
    values only the objects on the way to them, which have their names in order, each once. -/
structure Nested (buffer : List Value) (fields : List ResultField) (object : Fields) : Prop where
  values : ∀ field ∈ fields, ∃ v, readSlot buffer field.index field.converter = .ok v ∧
    (Value.object object).at? field.path = some v ∧ (Value.object object).atPath field.path = v
  onTheWay : ∀ path, OnTheWay fields path →
    ∃ inner, (Value.object object).at? path = some (.object inner) ∧ Keyed.Ascending inner
  nothingElse : ∀ path v, (Value.object object).at? path = some v →
    OnTheWay fields path ∨ ∃ field ∈ fields, field.path <+: path

theorem eq_of_prefix (apart : fields.Pairwise fun a b => Apart a.path b.path)
    {field other : ResultField} (inside : field ∈ fields) (known : other ∈ fields)
    (leads : field.path <+: other.path) : field.path = other.path :=
  List.Pairwise.forall_of_forall_of_flip (R := fun a b => a.path <+: b.path → a.path = b.path)
    (fun _ _ _ => rfl) (apart.imp fun away leads => absurd leads away.1)
    (apart.imp fun away leads => absurd leads away.2) inside known leads

/-- A path that ends before that of a field does is not inside of any field. -/
theorem OnTheWay.outside {path : AttributePath} (on : OnTheWay fields path)
    (proper : ∀ field ∈ fields, field.path ≠ [])
    (apart : fields.Pairwise fun a b => Apart a.path b.path) :
    ∀ field ∈ fields, ¬ field.path <+: path := by
  intro field inside leads
  rcases on with rfl | ⟨other, known, name, rest, further⟩
  · exact proper field inside (List.prefix_nil.mp leads)
  · have same : field.path = other.path :=
      eq_of_prefix apart inside known (leads.trans ⟨name :: rest, further.symm⟩)
    have longer := leads.length_le
    rw [same, further, List.length_append, List.length_cons] at longer
    omega

/-- On the way to values there are objects. -/
theorem OnTheWay.leads {object : Fields} {path : AttributePath} (on : OnTheWay fields path)
    (found : ∀ field ∈ fields, ∃ v, (Value.object object).at? field.path = some v) :
    ∃ inner, (Value.object object).at? path = some (.object inner) := by
  rcases on with rfl | ⟨field, inside, name, rest, further⟩
  · exact ⟨object, rfl⟩
  · obtain ⟨v, value⟩ := found field inside
    rw [further] at value
    exact Value.at?_on (List.cons_ne_nil name rest) value

/-- A path is apart from all fields, or on the way to one of them, or leads to or into one. -/
theorem apart_or_onTheWay (fields : List ResultField) (path : AttributePath) :
    (∀ field ∈ fields, Apart field.path path) ∨ OnTheWay fields path ∨
      ∃ field ∈ fields, field.path <+: path := by
  by_cases into : ∃ field ∈ fields, field.path <+: path
  · exact .inr (.inr into)
  by_cases through : ∃ field ∈ fields, path <+: field.path
  · obtain ⟨field, inside, rest, further⟩ := through
    right
    cases rest with
    | nil => exact .inr ⟨field, inside, [], by rw [List.append_nil, ← further, List.append_nil]⟩
    | cons name rest => exact .inl (.inr ⟨field, inside, name, rest, further.symm⟩)
  · exact .inl fun field inside =>
      ⟨fun leads => into ⟨field, inside, leads⟩, fun leads => through ⟨field, inside, leads⟩⟩

theorem nested_placeEach (proper : ∀ field ∈ fields, field.path ≠ [])
    (apart : fields.Pairwise fun a b => Apart a.path b.path)
    (readable : ∀ field ∈ fields, Succeeds (readSlot buffer field.index field.converter)) :
    Nested buffer fields (placeEach (fields.map (·.written buffer)) []) := by
  obtain ⟨found, kept⟩ := Value.at?_placeEach (fields.map (·.written buffer)) []
    (List.pairwise_map.mpr apart) (List.forall_mem_map.mpr proper)
  rw [List.forall_mem_map] at found
  simp only [List.forall_mem_map] at kept
  refine ⟨?_, ?_, ?_⟩
  · intro field inside
    have value := found field inside
    exact ⟨_, ResultField.readSlot_eq (readable field inside), value, congrArg (·.getD .null) value⟩
  · intro path on
    obtain ⟨inner, held⟩ := on.leads fun field inside => ⟨_, found field inside⟩
    refine ⟨inner, held, Value.ascending_placeEach ?_ ?_ held⟩
    · exact List.forall_mem_map.mpr (on.outside proper apart)
    · intro inner empty
      cases path with
      | nil =>
          cases empty
          exact Keyed.ascending_nil
      | cons name rest => cases empty
  · intro path v held
    by_cases root : path = []
    · exact .inl (.inl root)
    · refine (apart_or_onTheWay fields path).resolve_left fun away => ?_
      rw [kept path away, Value.at?_empty root] at held
      cases held

/-- A composite result whose fields can all be read, at paths that lie apart, has the value of every
    field at its path and nothing else but the objects on the way, whatever the order of the
    fields. -/
theorem assemble_composite_nested (aliasName : Option String)
    (proper : ∀ field ∈ fields, field.path ≠ [])
    (apart : fields.Pairwise fun a b => Apart a.path b.path)
    (readable : ∀ field ∈ fields, Succeeds (readSlot buffer field.index field.converter)) :
    ∃ object, assemble buffer (.composite aliasName fields) = .ok (.object object) ∧
      Nested buffer fields object ∧
      ∀ others, others.Perm fields →
        assemble buffer (.composite aliasName others) = .ok (.object object) := by
  have assembled : ∀ others, others.Perm fields →
      assemble buffer (.composite aliasName others) =
        .ok (.object (placeEach (fields.map (·.written buffer)) [])) := by
    intro others same
    have allReadable : ∀ field ∈ others,
        Succeeds (readSlot buffer field.index field.converter) :=
      fun field inside => readable field (same.mem_iff.mp inside)
    have stillApart : others.Pairwise fun a b => Apart a.path b.path :=
      same.symm.pairwise apart fun away => away.symm
    rw [assemble, assembleFields_readable allReadable,
      placeEach_perm (same.map _) (List.pairwise_map.mpr stillApart) []]
    rfl
  exact ⟨_, assembled fields (.refl fields), nested_placeEach proper apart readable, assembled⟩

end Composite

namespace Sample

/-- The buffer for a row with a number, a text, an object, a truth value as it is stored, and
    another text. -/
def cardBuffer : List Value :=
  [.int 7, .string "Ana", .object [("since", .int 9), ("from", .null)], .int 1, .string "Ng"]

/-- Fields of three depths, the inner ones on both sides of the outer one. -/
def cardFields : List ResultField :=
  [⟨["name", "first"], 1, none⟩, ⟨["name", "more", "used"], 3, some .booleanInt⟩, ⟨["id"], 0, none⟩,
    ⟨["name", "known"], 2, none⟩, ⟨["name", "more", "last"], 4, none⟩]

def card : Fields :=
  [("id", .int 7),
    ("name", .object
      [("first", .string "Ana"),
        ("known", .object [("since", .int 9), ("from", .null)]),
        ("more", .object [("last", .string "Ng"), ("used", .bool true)])])]

end Sample

theorem assemble_composite_nested_card :
    Nested Sample.cardBuffer Sample.cardFields Sample.card ∧
      assemble Sample.cardBuffer (.composite none Sample.cardFields.reverse) =
        .ok (.object Sample.card) := by
  have proper : ∀ field ∈ Sample.cardFields, field.path ≠ [] := by
    simp [Sample.cardFields]
  have apart : Sample.cardFields.Pairwise fun a b => Apart a.path b.path := by
    simp [Sample.cardFields, Apart, List.cons_prefix_cons]
  have readable : ∀ field ∈ Sample.cardFields,
      Succeeds (readSlot Sample.cardBuffer field.index field.converter) := by
    simp [Sample.cardFields, Sample.cardBuffer, readSlot, Converter.booleanInt]
  obtain ⟨object, assembled, nested, anyOrder⟩ :=
    assemble_composite_nested none proper apart readable
  have computed : assemble Sample.cardBuffer (.composite none Sample.cardFields) =
      .ok (.object Sample.card) := by rfl
  cases assembled.symm.trans computed
  exact ⟨nested, anyOrder _ (List.reverse_perm _)⟩

end EntityQuery
