import Mathlib.Data.List.Induction
import Mathlib.Data.List.Nodup
import TreeSchema.Schema

/-!
# Keys attached one by one

Validation attaches the keys of a declaration to its fields in turn and stops at the first that is
refused. What the loop has done so far is told by the keys it has read: a field carries the marks of
those that name it, and a key is refused as repeated if one of its own table has named the field. So
the loop ends either with the first bad key of either table or with every field marked as the two
tables say, whatever their order.
-/

namespace TreeSchema

set_option autoImplicit false

theorem find?_eq_some_of_nodup {α : Type} (key : α → String) {xs : List α}
    (hn : (xs.map key).Nodup) {x : α} (hx : x ∈ xs) :
    xs.find? (fun y => key y == key x) = some x := by
  obtain ⟨before, after, rfl⟩ := List.append_of_mem hx
  rw [List.map_append, List.nodup_append] at hn
  apply List.find?_eq_some_iff_append.mpr
  refine ⟨by simp, before, after, rfl, ?_⟩
  intro y hy
  have hne := hn.2.2 (key y) (List.mem_map_of_mem hy) (key x) (by simp)
  simpa using hne

theorem lookup_eq_some_iff_mem {β : Type} {pairs : List (String × β)}
    (hn : (pairs.map (·.1)).Nodup) (name : String) (value : β) :
    pairs.lookup name = some value ↔ (name, value) ∈ pairs := by
  induction pairs with
  | nil => simp
  | cons pair pairs ih =>
    obtain ⟨key, v⟩ := pair
    rw [List.map_cons, List.nodup_cons] at hn
    by_cases hk : name = key
    · subst hk
      have hAbsent : (name, value) ∉ pairs := fun hm =>
        hn.1 (List.mem_map_of_mem (f := (·.1)) hm)
      simp [hAbsent, eq_comm]
    · have hb : (name == key) = false := by simp [hk]
      simp [List.lookup_cons, hb, hk, ih hn.2]

namespace FieldDecl

/-- The field with the marks of those keys that name it. -/
def markedBy (f : FieldDecl) (keys : List (String × Mark)) : FieldSchema :=
  keys.foldl (fun s key => if key.1 = f.name then s.mark key.2 else s) (.unmarked f)

variable (f : FieldDecl) (keys : List (String × Mark))

theorem markedBy_concat (key : String × Mark) :
    f.markedBy (keys ++ [key]) =
      if key.1 = f.name then (f.markedBy keys).mark key.2 else f.markedBy keys := by
  rw [markedBy, List.foldl_append]
  rfl

theorem markedBy_layout : (f.markedBy keys).name = f.name ∧ (f.markedBy keys).kind = f.kind := by
  induction keys using List.reverseRecOn with
  | nil => exact ⟨rfl, rfl⟩
  | append_singleton keys key ih =>
    rw [markedBy_concat]
    split
    · cases key.2 <;> exact ih
    · exact ih

theorem isMarked_markedBy (m : Mark) :
    (f.markedBy keys).isMarked m = true ↔
      ∃ key ∈ keys, key.1 = f.name ∧ key.2.table = m.table := by
  induction keys using List.reverseRecOn with
  | nil => cases m <;> simp [markedBy, FieldSchema.unmarked, FieldSchema.isMarked]
  | append_singleton keys key ih =>
    obtain ⟨name, m'⟩ := key
    rw [markedBy_concat]
    simp only [List.mem_append, List.mem_singleton, or_and_right, exists_or, exists_eq_left, ← ih]
    by_cases hName : name = f.name
    · cases m <;> cases m' <;> simp [hName, FieldSchema.mark, FieldSchema.isMarked, Mark.table]
    · simp [hName]

theorem binding_markedBy {kind : BindingKind} (h : (f.markedBy keys).binding = some kind) :
    (f.name, .bind kind) ∈ keys := by
  induction keys using List.reverseRecOn with
  | nil => cases h
  | append_singleton keys key ih =>
    obtain ⟨name, m⟩ := key
    rw [markedBy_concat] at h
    by_cases hName : name = f.name
    · subst hName
      rw [if_pos rfl] at h
      cases m with
      | visit => exact List.mem_append_left _ (ih h)
      | bind kind' =>
        cases h
        simp
    · rw [if_neg hName] at h
      exact List.mem_append_left _ (ih h)

end FieldDecl

namespace FieldSchema

/-- One round of the loop: the first field of the name decides, and only that field changes. -/
theorem attach_markedBy {fields : List FieldDecl} (hn : (fields.map (·.name)).Nodup)
    (keys : List (String × Mark)) (tag name : String) (m : Mark) :
    attach tag name m (fields.map (·.markedBy keys)) =
      match fields.find? fun f => f.name == name with
      | none => .error (.unknownFieldKey tag name m.table)
      | some f =>
        if f.kind.isChild = false then .error (m.table.scalarFault tag name)
        else if (f.markedBy keys).isMarked m then .error (.duplicateKey tag name m.table)
        else .ok (fields.map (·.markedBy (keys ++ [(name, m)]))) := by
  induction fields with
  | nil => rfl
  | cons f fields ih =>
    rw [List.map_cons, List.nodup_cons] at hn
    have hLayout := f.markedBy_layout keys
    by_cases hName : f.name = name
    · -- No later field has this name, so the key marks the head and nothing else.
      have hRest : fields.map (·.markedBy (keys ++ [(name, m)])) =
          fields.map (·.markedBy keys) := by
        apply List.map_congr_left
        intro g hg
        rw [FieldDecl.markedBy_concat]
        apply if_neg
        intro hEq
        exact hn.1 (List.mem_map.mpr ⟨g, hg, by rw [hName, ← hEq]⟩)
      have hHead : f.markedBy (keys ++ [(name, m)]) = (f.markedBy keys).mark m := by
        rw [FieldDecl.markedBy_concat]
        exact if_pos hName.symm
      simp [attach, hLayout, hName, hRest, hHead]
    · have hHead : f.markedBy (keys ++ [(name, m)]) = f.markedBy keys := by
        rw [FieldDecl.markedBy_concat]
        exact if_neg (Ne.symm hName)
      simp only [List.map_cons, attach, hLayout, hName, if_false, ih hn.2, hHead, beq_iff_eq,
        List.find?_cons_of_neg, not_false_eq_true]
      cases fields.find? fun f => f.name == name with
      | none => rfl
      | some g =>
        by_cases hk : g.kind.isChild = false
        · simp [hk, Except.map]
        · cases hm : (g.markedBy keys).isMarked m <;> simp [hk, hm, Except.map]

theorem attachAll_append (tag : String) (keys more : List (String × Mark))
    (fields : List FieldSchema) :
    attachAll tag (keys ++ more) fields =
      match attachAll tag keys fields with
      | .error e => .error e
      | .ok fields => attachAll tag more fields := by
  induction keys generalizing fields with
  | nil => rfl
  | cons key keys ih =>
    simp only [List.cons_append, attachAll]
    cases attach tag key.1 key.2 fields with
    | error e => rfl
    | ok fields => exact ih fields

end FieldSchema

/-- The names in `earlier` are those that the keys of the table have named so far. -/
def KeyTable.Lists (table : KeyTable) (keys : List (String × Mark)) (earlier : List String) : Prop :=
  ∀ name, name ∈ earlier ↔ ∃ key ∈ keys, key.1 = name ∧ key.2.table = table

theorem KeyTable.Lists.concat {table : KeyTable} {keys : List (String × Mark)}
    {earlier : List String} (h : table.Lists keys earlier) (name : String) {m : Mark}
    (hm : m.table = table) : table.Lists (keys ++ [(name, m)]) (name :: earlier) := by
  intro other
  rw [List.mem_cons, h other]
  simp only [List.mem_append, List.mem_singleton, or_and_right, exists_or, exists_eq_left, hm,
    and_true]
  rw [or_comm, eq_comm]

namespace ShapeDecl

/-- What is wrong with a key that follows the keys `earlier` of its table. -/
def keyFault? (d : ShapeDecl) (table : KeyTable) (earlier : List String) (key : String) :
    Option SchemaError :=
  match d.kind? key with
  | none => some (.unknownFieldKey d.tag key table)
  | some kind =>
    if kind.isChild = false then some (table.scalarFault d.tag key)
    else if key ∈ earlier then some (.duplicateKey d.tag key table)
    else none

def firstKeyFaultAfter? (d : ShapeDecl) (table : KeyTable) (earlier : List String) :
    List String → Option SchemaError
  | [] => none
  | key :: keys =>
    match d.keyFault? table earlier key with
    | some fault => some fault
    | none => d.firstKeyFaultAfter? table (key :: earlier) keys

def firstKeyFault? (d : ShapeDecl) (table : KeyTable) (keys : List String) : Option SchemaError :=
  d.firstKeyFaultAfter? table [] keys

/-- The first fault of a declaration that no lint level forgives. -/
def firstFault? (d : ShapeDecl) : Option SchemaError :=
  match firstRepeat? (d.fields.map (·.name)) with
  | some name => some (.duplicateField d.tag name)
  | none =>
    match d.firstKeyFault? .visitor d.visitorKeys with
    | some fault => some fault
    | none => d.firstKeyFault? .binding (d.bindingKeys.map (·.1))

def untraversed (d : ShapeDecl) : List String :=
  (d.fields.filter fun f => f.kind.isChild && !d.visitorKeys.contains f.name).map (·.name)

def fieldSchema (d : ShapeDecl) (f : FieldDecl) : FieldSchema where
  name := f.name
  kind := f.kind
  visit := d.visitorKeys.contains f.name
  binding := d.bindingKeys.lookup f.name

def schema (d : ShapeDecl) : NodeSchema :=
  .ofFields d.tag (d.fields.map d.fieldSchema)

section Loop

variable {d : ShapeDecl} {table : KeyTable} {keys : List (String × Mark)} {earlier : List String}

theorem attach_eq_keyFault? (hn : (d.fields.map (·.name)).Nodup) {name : String} {m : Mark}
    (hEarlier : m.table.Lists keys earlier) :
    FieldSchema.attach d.tag name m (d.fields.map (·.markedBy keys)) =
      match d.keyFault? m.table earlier name with
      | some fault => .error fault
      | none => .ok (d.fields.map (·.markedBy (keys ++ [(name, m)]))) := by
  rw [FieldSchema.attach_markedBy hn, keyFault?, kind?]
  cases hf : d.fields.find? fun f => f.name == name with
  | none => rfl
  | some f =>
    have hName : f.name = name := by simpa using List.find?_some hf
    have hMarked : (f.markedBy keys).isMarked m = true ↔ name ∈ earlier := by
      rw [f.isMarked_markedBy, hName, hEarlier name]
    cases hk : f.kind.isChild <;> by_cases hm : name ∈ earlier <;> simp [hk, hm, hMarked]

/-- The loop over the keys of one table stops at the first bad one, and else it leaves the marks of
all of them. -/
theorem attachAll_eq (hn : (d.fields.map (·.name)).Nodup) {more : List (String × Mark)}
    (hTable : ∀ key ∈ more, key.2.table = table) (hEarlier : table.Lists keys earlier) :
    FieldSchema.attachAll d.tag more (d.fields.map (·.markedBy keys)) =
      match d.firstKeyFaultAfter? table earlier (more.map (·.1)) with
      | some fault => .error fault
      | none => .ok (d.fields.map (·.markedBy (keys ++ more))) := by
  induction more generalizing keys earlier with
  | nil => simp [FieldSchema.attachAll, firstKeyFaultAfter?]
  | cons key more ih =>
    obtain ⟨name, m⟩ := key
    have hm : m.table = table := hTable _ List.mem_cons_self
    have hRest : ∀ key ∈ more, key.2.table = table :=
      fun key hk => hTable key (List.mem_cons_of_mem _ hk)
    subst hm
    simp only [FieldSchema.attachAll, List.map_cons, firstKeyFaultAfter?,
      attach_eq_keyFault? hn hEarlier]
    cases d.keyFault? m.table earlier name with
    | some fault => rfl
    | none =>
      have hNext := ih hRest (hEarlier.concat name rfl)
      rw [List.append_assoc] at hNext
      exact hNext

theorem table_of_mem_visitorMarks (d : ShapeDecl) :
    ∀ key ∈ d.visitorMarks, key.2.table = .visitor := by
  intro key hk
  obtain ⟨_, _, rfl⟩ := List.mem_map.mp hk
  rfl

theorem table_of_mem_bindingMarks (d : ShapeDecl) :
    ∀ key ∈ d.bindingMarks, key.2.table = .binding := by
  intro key hk
  obtain ⟨_, _, rfl⟩ := List.mem_map.mp hk
  rfl

/-- The loop goes over the visitor keys first. None of them counts when a binding key is asked for
repetition. -/
theorem attachAll_marks (hn : (d.fields.map (·.name)).Nodup) :
    FieldSchema.attachAll d.tag d.marks (d.fields.map .unmarked) =
      match d.firstKeyFault? .visitor d.visitorKeys with
      | some fault => .error fault
      | none =>
        match d.firstKeyFault? .binding (d.bindingKeys.map (·.1)) with
        | some fault => .error fault
        | none => .ok (d.fields.map (·.markedBy d.marks)) := by
  have hNone : KeyTable.visitor.Lists [] [] := by simp [KeyTable.Lists]
  have hVisitor := attachAll_eq hn d.table_of_mem_visitorMarks hNone
  have hOther : KeyTable.binding.Lists d.visitorMarks [] := by
    intro name
    apply iff_of_false List.not_mem_nil
    intro ⟨key, hk, _, hTable⟩
    rw [d.table_of_mem_visitorMarks key hk] at hTable
    cases hTable
  have hBinding := attachAll_eq hn d.table_of_mem_bindingMarks hOther
  have hVisitorNames : d.visitorMarks.map (·.1) = d.visitorKeys := by
    simp [visitorMarks, Function.comp_def]
  have hBindingNames : d.bindingMarks.map (·.1) = d.bindingKeys.map (·.1) := by
    simp [bindingMarks, Function.comp_def]
  have hStart : d.fields.map FieldSchema.unmarked = d.fields.map (·.markedBy []) := rfl
  rw [hVisitorNames] at hVisitor
  rw [hBindingNames] at hBinding
  rw [marks, FieldSchema.attachAll_append, hStart, hVisitor]
  unfold firstKeyFault?
  cases d.firstKeyFaultAfter? .visitor [] d.visitorKeys with
  | some fault => rfl
  | none => exact hBinding

theorem visit_mem_marks_iff (name : String) :
    (∃ key ∈ d.marks, key.1 = name ∧ key.2.table = .visitor) ↔ name ∈ d.visitorKeys := by
  constructor
  · intro ⟨key, hk, hName, hTable⟩
    rcases List.mem_append.mp hk with hk | hk
    · obtain ⟨_, hKey, rfl⟩ := List.mem_map.mp hk
      exact hName ▸ hKey
    · rw [d.table_of_mem_bindingMarks key hk] at hTable
      cases hTable
  · intro hKey
    have hm : (name, Mark.visit) ∈ d.visitorMarks := List.mem_map_of_mem hKey
    exact ⟨_, List.mem_append_left _ hm, rfl, rfl⟩

theorem bind_mem_marks_iff (name : String) (kind : BindingKind) :
    (name, .bind kind) ∈ d.marks ↔ (name, kind) ∈ d.bindingKeys := by
  simp [marks, visitorMarks, bindingMarks]

/-- Marks set one by one are those that the tables describe, if no field is bound twice. -/
theorem markedBy_marks (hn : (d.bindingKeys.map (·.1)).Nodup) (f : FieldDecl) :
    f.markedBy d.marks = d.fieldSchema f := by
  obtain ⟨hName, hKind⟩ := f.markedBy_layout d.marks
  apply FieldSchema.ext hName hKind
  · have hVisit : (f.markedBy d.marks).visit = true ↔ f.name ∈ d.visitorKeys :=
      (f.isMarked_markedBy d.marks .visit).trans (visit_mem_marks_iff f.name)
    apply Bool.eq_iff_iff.mpr
    rw [hVisit]
    simp [fieldSchema]
  · apply Option.ext
    intro kind
    rw [fieldSchema, lookup_eq_some_iff_mem hn, ← bind_mem_marks_iff]
    constructor
    · exact f.binding_markedBy d.marks
    · intro hm
      have hMarked : (f.markedBy d.marks).isMarked (.bind kind) = true :=
        (f.isMarked_markedBy d.marks _).mpr ⟨_, hm, rfl, rfl⟩
      obtain ⟨kind', hBound⟩ := Option.isSome_iff_exists.mp hMarked
      have hm' := f.binding_markedBy d.marks hBound
      rw [bind_mem_marks_iff] at hm hm'
      have hSame := List.inj_on_of_nodup_map hn hm hm' rfl
      rw [hBound, (Prod.mk.inj hSame).2]

end Loop

end ShapeDecl

end TreeSchema
