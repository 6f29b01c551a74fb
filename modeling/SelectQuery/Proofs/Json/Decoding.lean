-- Statements read back from JSON. A statement's tree, and each of its two texts,
-- gives the whole statement back; the tree has its keys in order, and those of
-- the optional clauses only where the clauses stand.
import SelectQuery.Proofs.Json.Reading
import SelectQuery.Statement.Tree

namespace SelectQuery

/-! ## Decoding trees -/

/-- The fields of an object; other values have none. -/
def Json.fields : Json → List (String × Json)
  | object fields => fields
  | _ => []

/-- The name in a tree. -/
def nameOfTree? : Json → Option String
  | .object [("type", .string "name"), ("value", .string n)] => some n
  | _ => none

/-- The number in a tree, if it fits. -/
def numberOfTree? : Json → Option Int64
  | .number n => if (Int64.ofInt n).toInt = n then some (Int64.ofInt n) else none
  | _ => none

/-- The column of a tree. -/
def Column.ofTree? : Json → Option Column
  | .object [("type", .string "star")] => some star
  | .object [("type", .string "name"), ("value", .string n)] => some (name n)
  | .object [("arg", argument), ("name", .string function), ("type", .string "call")] =>
    (nameOfTree? argument).map (call function)
  | _ => none

/-- The columns of a tree. -/
def Column.listOfTree? : Json → Option (List Column)
  | .array trees => trees.mapM ofTree?
  | _ => none

/-- The value of a tree. -/
def Value.ofTree? : Json → Option Value
  | .object [("type", .string "literal"), ("value", .string s)] => some (string s)
  | .object [("type", .string "literal"), ("value", n)] => (numberOfTree? n).map number
  | .object [("type", .string "name"), ("value", .string n)] => some (name n)
  | _ => none

/-- The operator with a symbol. -/
def Operator.ofSymbol? : String → Option Operator
  | "=" => some equals
  | "and" => some and
  | "or" => some or
  | _ => none

/-- The condition of a tree. -/
def Condition.ofTree? : Json → Option Condition
  | .object [("args", .array [left, right]), ("op", .string symbol)] => do
    return binary (← Operator.ofSymbol? symbol) (← ofTree? left) (← ofTree? right)
  | tree => (Value.ofTree? tree).map value

/-- The statement of a tree. Its fields are found by their keys. -/
def Statement.ofTree? (tree : Json) : Option Statement := do
  let columns ← Column.listOfTree? (← tree.fields.lookup "columns")
  let table ← nameOfTree? (← tree.fields.lookup "index")
  let condition ← (tree.fields.lookup "condition").mapM Condition.ofTree?
  let limit ← (tree.fields.lookup "limit").mapM numberOfTree?
  let orderBy ← (tree.fields.lookup "order_by").mapM Column.listOfTree?
  return { columns, table, condition, limit, orderBy }

/-- The statement that a text stands for. -/
def Statement.ofJson? (text : String) : Option Statement :=
  (Json.read? text).bind ofTree?

/-! ## Every tree is decoded -/

@[simp]
theorem nameOfTree?_nameTree (n : String) : nameOfTree? (nameTree n) = some n := rfl

@[simp]
theorem numberOfTree?_number (n : Int64) : numberOfTree? (.number n.toInt) = some n := by
  simp [numberOfTree?]

theorem Column.ofTree?_tree (column : Column) : ofTree? column.tree = some column := by
  cases column <;> rfl

@[simp]
theorem Column.listOfTree?_listTree (columns : List Column) :
    listOfTree? (listTree columns) = some columns := by
  change (columns.map tree).mapM ofTree? = some columns
  induction columns with
  | nil => rfl
  | cons column columns ih => simp [ofTree?_tree, ih]

theorem Value.ofTree?_tree (value : Value) : ofTree? value.tree = some value := by
  cases value with
  | number n => simp [tree, ofTree?]
  | string s => rfl
  | name n => rfl

@[simp]
theorem Operator.ofSymbol?_symbol (op : Operator) : ofSymbol? op.symbol = some op := by
  cases op <;> rfl

@[simp]
theorem Condition.ofTree?_tree (condition : Condition) :
    ofTree? condition.tree = some condition := by
  induction condition with
  | value v =>
    have hleaf : ofTree? v.tree = (Value.ofTree? v.tree).map value := by cases v <;> rfl
    rw [tree, hleaf, Value.ofTree?_tree, Option.map_some]
  | binary op left right ihl ihr => simp [tree, ofTree?, ihl, ihr]

namespace Statement

theorem lookup_fields (s : Statement) :
    s.tree.fields.lookup "columns" = some (Column.listTree s.columns) ∧
    s.tree.fields.lookup "index" = some (nameTree s.table) ∧
    s.tree.fields.lookup "condition" = s.condition.map Condition.tree ∧
    s.tree.fields.lookup "limit" = s.limit.map (fun n => Json.number n.toInt) ∧
    s.tree.fields.lookup "order_by" = s.orderBy.map Column.listTree := by
  obtain ⟨columns, table, condition, limit, orderBy⟩ := s
  cases condition <;> cases limit <;> cases orderBy <;> exact ⟨rfl, rfl, rfl, rfl, rfl⟩

/-- An optional field is decoded as what it was made of. -/
theorem mapM_map_decoded {α : Type} {encode : α → Json} {decode : Json → Option α}
    (h : ∀ a, decode (encode a) = some a) (a : Option α) :
    (a.map encode).mapM decode = some a := by
  cases a with
  | none => rfl
  | some a => simp [h]

theorem ofTree?_tree (s : Statement) : ofTree? s.tree = some s := by
  obtain ⟨hcolumns, htable, hcondition, hlimit, horderBy⟩ := s.lookup_fields
  have hcondition' := mapM_map_decoded Condition.ofTree?_tree s.condition
  have hlimit' := mapM_map_decoded numberOfTree?_number s.limit
  have horderBy' := mapM_map_decoded Column.listOfTree?_listTree s.orderBy
  simp [ofTree?, hcolumns, htable, hcondition, hlimit, horderBy, hcondition', hlimit',
    horderBy']

end Statement

/-! ## Keys -/

namespace Json

/-- A key stands before another, by their code points. -/
def KeyBefore (a b : String) : Prop :=
  List.Lex (fun c d : Char => c.toNat < d.toNat) a.toList b.toList

instance (a b : String) : Decidable (KeyBefore a b) :=
  inferInstanceAs (Decidable (List.Lex (fun c d : Char => c.toNat < d.toNat) a.toList b.toList))

/-- Every object has its keys in strictly increasing order. -/
inductive Sorted : Json → Prop
  | number (n : Int) : Sorted (.number n)
  | string (s : String) : Sorted (.string s)
  | array {items : List Json} (h : ∀ item ∈ items, Sorted item) : Sorted (.array items)
  | object {fields : List (String × Json)} (hkeys : (fields.map Prod.fst).Pairwise KeyBefore)
      (h : ∀ field ∈ fields, Sorted field.2) : Sorted (.object fields)

@[simp]
theorem sorted_number (n : Int) : (number n).Sorted := .number n

@[simp]
theorem sorted_string (s : String) : (string s).Sorted := .string s

@[simp]
theorem sorted_array {items : List Json} :
    (array items).Sorted ↔ ∀ item ∈ items, item.Sorted := by
  constructor
  · intro h
    cases h with
    | array h => exact h
  · exact .array

@[simp]
theorem sorted_object {fields : List (String × Json)} :
    (object fields).Sorted ↔
      (fields.map Prod.fst).Pairwise KeyBefore ∧ ∀ field ∈ fields, field.2.Sorted := by
  constructor
  · intro h
    cases h with
    | object hkeys h => exact ⟨hkeys, h⟩
  · rintro ⟨hkeys, h⟩
    exact .object hkeys h

/-- The keys of an object. -/
def keys (json : Json) : List String :=
  json.fields.map Prod.fst

theorem mem_keys {json : Json} {key : String} :
    key ∈ json.keys ↔ (json.fields.lookup key).isSome = true := by
  rw [List.lookup_isSome_iff, keys, List.mem_map]
  constructor
  · rintro ⟨field, hfield, rfl⟩
    exact ⟨field, hfield, by simp⟩
  · rintro ⟨field, hfield, hkey⟩
    exact ⟨field, hfield, (eq_of_beq hkey).symm⟩

end Json

@[simp]
theorem sorted_nameTree (n : String) : (nameTree n).Sorted := by
  have hkeys : ["type", "value"].Pairwise Json.KeyBefore := by decide
  exact .object hkeys (by simp)

theorem Column.sorted_tree (column : Column) : column.tree.Sorted := by
  cases column with
  | star => simp [tree]
  | name n => exact sorted_nameTree n
  | call function argument =>
    have hkeys : ["arg", "name", "type"].Pairwise Json.KeyBefore := by decide
    exact .object hkeys (by simp)

@[simp]
theorem Column.sorted_listTree (columns : List Column) : (listTree columns).Sorted := by
  refine .array ?_
  intro item hitem
  obtain ⟨column, -, rfl⟩ := List.mem_map.1 hitem
  exact column.sorted_tree

theorem Value.sorted_tree (value : Value) : value.tree.Sorted := by
  have hkeys : ["type", "value"].Pairwise Json.KeyBefore := by decide
  cases value with
  | number n => exact .object hkeys (by simp)
  | string s => exact .object hkeys (by simp)
  | name n => exact sorted_nameTree n

@[simp]
theorem Condition.sorted_tree (condition : Condition) : condition.tree.Sorted := by
  induction condition with
  | value v => exact v.sorted_tree
  | binary op left right ihl ihr =>
    have hkeys : ["args", "op"].Pairwise Json.KeyBefore := by decide
    exact .object hkeys (by simp [ihl, ihr])

namespace Statement

/-- The keys of a tree are among these, in this order. -/
theorem keys_sublist (s : Statement) :
    s.tree.keys.Sublist ["columns", "condition", "index", "limit", "order_by", "type"] := by
  obtain ⟨columns, table, condition, limit, orderBy⟩ := s
  cases condition <;> cases limit <;> cases orderBy <;> simp [tree, Json.keys, Json.fields]

theorem sorted_tree (s : Statement) : s.tree.Sorted := by
  refine .object (List.Pairwise.sublist s.keys_sublist (by decide)) ?_
  obtain ⟨columns, table, condition, limit, orderBy⟩ := s
  cases condition <;> cases limit <;> cases orderBy <;> simp

end Statement

/-! ## The law -/

theorem Statement.ofJson?_of_isTextOf {text : String} {s : Statement}
    (h : Json.IsTextOf text s.tree) : ofJson? text = some s := by
  rw [ofJson?, Json.read?_eq_some_iff.2 h, Option.bind_some, ofTree?_tree]

/-- A statement is kept in both of its texts. They are read as JSON with one value,
the statement's tree; in the tree the keys of every object increase, and the
clauses that may be absent have a key exactly if they stand. -/
theorem the_json_of_a_statement_keeps_all_of_it (s : Statement) :
    Statement.ofJson? s.json = some s ∧
    Statement.ofJson? s.indentedJson = some s ∧
    (∀ text value, Json.read? text = some value ↔ Json.IsTextOf text value) ∧
    Json.read? s.json = some s.tree ∧
    Json.read? s.indentedJson = some s.tree ∧
    s.tree.Sorted ∧
    ("condition" ∈ s.tree.keys ↔ s.condition.isSome = true) ∧
    ("limit" ∈ s.tree.keys ↔ s.limit.isSome = true) ∧
    ("order_by" ∈ s.tree.keys ↔ s.orderBy.isSome = true) := by
  have hjson : Json.IsTextOf s.json s.tree := Json.isTextOf_compact s.tree
  have hindented : Json.IsTextOf s.indentedJson s.tree := Json.isTextOf_indented s.tree
  obtain ⟨-, -, hcondition, hlimit, horderBy⟩ := s.lookup_fields
  refine ⟨Statement.ofJson?_of_isTextOf hjson, Statement.ofJson?_of_isTextOf hindented,
    fun _ _ => Json.read?_eq_some_iff, Json.read?_eq_some_iff.2 hjson,
    Json.read?_eq_some_iff.2 hindented, s.sorted_tree, ?_, ?_, ?_⟩
  · rw [Json.mem_keys, hcondition, Option.isSome_map]
  · rw [Json.mem_keys, hlimit, Option.isSome_map]
  · rw [Json.mem_keys, horderBy, Option.isSome_map]

end SelectQuery
