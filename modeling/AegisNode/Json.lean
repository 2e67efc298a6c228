import Mathlib.Data.String.Basic
import Mathlib.Tactic

/-!
JSON values as `serde_json` holds them, and the third-party serializer and parser
as a parameter.
-/
namespace AegisNode.Json

/-- The bits of an `f64` that is neither infinite nor a NaN. -/
def finiteBits (bits : UInt64) : Bool := bits.toNat/2^52%2^11 ≠ 2^11-1

/-- `serde_json::Number`: an integer of at most 64 bits or a finite float. -/
inductive Number where
  | PosInt (n : UInt64)
  | NegInt (n : Int) (range : -2^63 ≤ n ∧ n < 0)
  | Float (bits : UInt64) (finite : finiteBits bits)
  deriving DecidableEq,Repr

/-- `serde_json::Value`; the fields of an object stand in the order of the map. -/
inductive Value where
  | Null
  | Bool (b : Bool)
  | Number (n : Number)
  | String (s : String)
  | Array (items : List Value)
  | Object (fields : List (String × Value))

/-- `serde_json::Map<String,Value>`. -/
abbrev Map := List (String × Value)

/-- `Map::get`. -/
def Map.get (map : Map) (key : String) : Option Value := (map.find? (fun field => field.1 = key)).map (·.2)

/-- `Map::insert`: keys stay sorted, an existing value is replaced. -/
def Map.insert (map : Map) (key : String) (value : Value) : Map :=
  match map with
  | [] => [(key,value)]
  | field :: rest =>
    if key = field.1 then (key,value) :: rest
    else if key < field.1 then (key,value) :: field :: rest
    else field :: Map.insert rest key value

/-- Inserts the fields one after the other. -/
def Map.insertAll (map : Map) (fields : List (String × Value)) : Map :=
  fields.foldl (fun map field => map.insert field.1 field.2) map

/-- `Value::get`. -/
def getField (v : Value) (key : String) : Option Value :=
  match v with
  | .Object fields => Map.get fields key
  | _ => none

def asStr : Value → Option String
  | .String s => some s
  | _ => none

def asU64 : Value → Option UInt64
  | .Number (.PosInt n) => some n
  | _ => none

def asArray : Value → Option (List Value)
  | .Array items => some items
  | _ => none

mutual
/-- How deep arrays and objects nest. -/
def depth : Value → Nat
  | .Array items => 1+itemsDepth items
  | .Object fields => 1+fieldsDepth fields
  | _ => 0

def itemsDepth : List Value → Nat
  | [] => 0
  | item :: rest => max (depth item) (itemsDepth rest)

def fieldsDepth : List (String × Value) → Nat
  | [] => 0
  | field :: rest => max (depth field.2) (fieldsDepth rest)
end

mutual
/-- The keys of every object stand in increasing order. -/
def ordered : Value → Bool
  | .Array items => itemsOrdered items
  | .Object fields => fieldsOrdered fields
  | _ => true

def itemsOrdered : List Value → Bool
  | [] => true
  | item :: rest => ordered item && itemsOrdered rest

def fieldsOrdered : List (String × Value) → Bool
  | [] => true
  | field :: rest => rest.all (fun other => field.1 < other.1) && ordered field.2 && fieldsOrdered rest
end

mutual
/-- The value as `serde_json` holds it, with the keys of every object in order. -/
def normal : Value → Value
  | .Array items => .Array (normalItems items)
  | .Object fields => .Object (normalFields [] fields)
  | v => v

def normalItems : List Value → List Value
  | [] => []
  | item :: rest => normal item :: normalItems rest

def normalFields : Map → List (String × Value) → Map
  | map,[] => map
  | map,field :: rest => normalFields (map.insert field.1 (normal field.2)) rest
end

/-- The parser gives up on a 128th nested array or object. -/
def nestingLimit : Nat := 127

/-- The third-party `serde_json`: `to_string` and `from_str` with its error
    text. -/
class Serde where
  toString : Value → String
  fromStr : String → Except String Value

/-- The serializer writes one line, and the parser reads back what it wrote
    within the nesting limit. -/
structure Faithful (serde : Serde) : Prop where
  readsBack : ∀ v,ordered v → depth v ≤ nestingLimit → serde.fromStr (serde.toString v) = .ok v
  oneLine : ∀ v,'\n' ∉ (serde.toString v).toList

/-! ### Maps -/

@[simp] theorem get_nil (key : String) : Map.get [] key = none := rfl

theorem get_cons (field : String × Value) (rest : Map) (key : String) :
    Map.get (field :: rest) key = if field.1 = key then some field.2 else Map.get rest key := by
  unfold Map.get
  by_cases same : field.1 = key <;> simp [same]

theorem get_insert (map : Map) (key other : String) (value : Value) :
    (map.insert key value).get other = if key = other then some value else map.get other := by
  induction map with
  | nil => simp [Map.insert,get_cons]
  | cons field rest ih =>
    rw [Map.insert]
    split_ifs with first before hit hit hit <;> simp_all [get_cons]
    intro same
    exact absurd (same ▸ first) (by simp_all)

/-- Inserting other keys leaves a field alone. -/
theorem get_insertAll_of_absent {fields : List (String × Value)} {key : String} (absent : ∀ field ∈ fields,field.1 ≠ key)
    (map : Map) : (map.insertAll fields).get key = map.get key := by
  induction fields generalizing map with
  | nil => rfl
  | cons field rest ih =>
    have later := ih (fun other member => absent other (List.mem_cons_of_mem _ member)) (map.insert field.1 field.2)
    rw [Map.insertAll,List.foldl_cons]
    rw [Map.insertAll] at later
    rw [later,get_insert,if_neg (absent field List.mem_cons_self)]

theorem insert_keys {map : Map} {key : String} {value : Value} {field : String × Value}
    (member : field ∈ map.insert key value) : field.1 = key ∨ field ∈ map := by
  induction map with
  | nil =>
    obtain rfl := List.mem_singleton.mp member
    exact .inl rfl
  | cons first rest ih =>
    rw [Map.insert] at member
    split_ifs at member with same before
    · rcases List.mem_cons.mp member with rfl | member
      · exact .inl rfl
      · exact .inr (List.mem_cons_of_mem _ member)
    · rcases List.mem_cons.mp member with rfl | member
      · exact .inl rfl
      · exact .inr member
    · rcases List.mem_cons.mp member with rfl | member
      · exact .inr List.mem_cons_self
      · rcases ih member with here | member
        · exact .inl here
        · exact .inr (List.mem_cons_of_mem _ member)

theorem fieldsDepth_insert (map : Map) (key : String) (value : Value) :
    fieldsDepth (map.insert key value) ≤ max (depth value) (fieldsDepth map) := by
  induction map with
  | nil => simp [Map.insert,fieldsDepth]
  | cons field rest ih =>
    rw [Map.insert]
    split_ifs <;> simp only [fieldsDepth] <;> omega

theorem fieldsDepth_insertAll (fields : List (String × Value)) (map : Map) :
    fieldsDepth (map.insertAll fields) ≤ max (fieldsDepth fields) (fieldsDepth map) := by
  induction fields generalizing map with
  | nil => simp [Map.insertAll,fieldsDepth]
  | cons field rest ih =>
    have later := ih (map.insert field.1 field.2)
    have here := fieldsDepth_insert map field.1 field.2
    rw [Map.insertAll] at later
    rw [Map.insertAll,List.foldl_cons,fieldsDepth]
    omega

theorem fieldsOrdered_insert {map : Map} (sorted : fieldsOrdered map) (key : String) {value : Value}
    (inside : ordered value) :
    fieldsOrdered (map.insert key value) := by
  induction map with
  | nil => simp [Map.insert,fieldsOrdered,inside]
  | cons field rest ih =>
    simp only [fieldsOrdered,Bool.and_eq_true,List.all_eq_true,decide_eq_true_eq] at sorted
    obtain ⟨⟨above,first⟩,later⟩ := sorted
    rw [Map.insert]
    split_ifs with same before
    · subst same
      simpa [fieldsOrdered,inside,later] using above
    · simp only [fieldsOrdered,List.all_cons,Bool.and_eq_true,List.all_eq_true,decide_eq_true_eq]
      exact ⟨⟨⟨before,fun other member => before.trans (above other member)⟩,inside⟩,⟨above,first⟩,later⟩
    · simp only [fieldsOrdered,Bool.and_eq_true,List.all_eq_true,decide_eq_true_eq]
      refine ⟨⟨?_,first⟩,ih later⟩
      intro other member
      rcases insert_keys member with here | member
      · rw [here]
        exact lt_of_le_of_ne (not_lt.mp before) (Ne.symm same)
      · exact above other member

theorem insertAll_keys {fields : List (String × Value)} {map : Map} {field : String × Value}
    (member : field ∈ map.insertAll fields) : (∃ given ∈ fields,given.1 = field.1) ∨ field ∈ map := by
  induction fields generalizing map with
  | nil => exact .inr member
  | cons first rest ih =>
    rcases ih member with ⟨given,inside,same⟩ | inserted
    · exact .inl ⟨given,List.mem_cons_of_mem _ inside,same⟩
    · rcases insert_keys inserted with here | old
      · exact .inl ⟨first,List.mem_cons_self,here.symm⟩
      · exact .inr old

theorem fieldsOrdered_insertAll {fields : List (String × Value)} (inside : ∀ field ∈ fields,ordered field.2)
    {map : Map}
    (sorted : fieldsOrdered map) : fieldsOrdered (map.insertAll fields) := by
  induction fields generalizing map with
  | nil => exact sorted
  | cons field rest ih =>
    exact ih (fun other member => inside other (List.mem_cons_of_mem _ member))
      (fieldsOrdered_insert sorted field.1 (inside field List.mem_cons_self))

mutual
theorem ordered_normal : ∀ v,ordered (normal v)
  | .Null => rfl
  | .Bool _ => rfl
  | .Number _ => rfl
  | .String _ => rfl
  | .Array items => itemsOrdered_normal items
  | .Object fields => fieldsOrdered_normal [] rfl fields

theorem itemsOrdered_normal : ∀ items,itemsOrdered (normalItems items)
  | [] => rfl
  | item :: rest => by
    rw [normalItems,itemsOrdered,Bool.and_eq_true]
    exact ⟨ordered_normal item,itemsOrdered_normal rest⟩

theorem fieldsOrdered_normal : ∀ map,fieldsOrdered map → ∀ fields,fieldsOrdered (normalFields map fields)
  | _,sorted,[] => sorted
  | map,sorted,field :: rest => by
    rw [normalFields]
    exact fieldsOrdered_normal _ (fieldsOrdered_insert sorted field.1 (ordered_normal field.2)) rest
end

theorem ordered_of_mem {fields : Map} (sorted : fieldsOrdered fields) : ∀ field ∈ fields,ordered field.2 := by
  induction fields with
  | nil => simp
  | cons field rest ih =>
    simp only [fieldsOrdered,Bool.and_eq_true] at sorted
    intro other member
    rcases List.mem_cons.mp member with rfl | member
    · exact sorted.1.2
    · exact ih sorted.2 other member

theorem insert_above {map : Map} {key : String} (value : Value) (above : ∀ field ∈ map,field.1 < key) :
    map.insert key value = map ++ [(key,value)] := by
  induction map with
  | nil => rfl
  | cons field rest ih =>
    have below := above field List.mem_cons_self
    rw [Map.insert,if_neg (ne_of_gt below),if_neg (not_lt_of_gt below),
      ih (fun other member => above other (List.mem_cons_of_mem _ member)),List.cons_append]

/-- Fields in order are the map they make. -/
theorem insertAll_ordered {fields : Map} (sorted : fieldsOrdered fields) {map : Map}
    (above : ∀ low ∈ map,∀ high ∈ fields,low.1 < high.1) : map.insertAll fields = map ++ fields := by
  induction fields generalizing map with
  | nil => simp [Map.insertAll]
  | cons field rest ih =>
    simp only [fieldsOrdered,Bool.and_eq_true,List.all_eq_true,decide_eq_true_eq] at sorted
    have first := insert_above field.2 (fun low member => above low member field List.mem_cons_self)
    have later : ∀ low ∈ map ++ [field],∀ high ∈ rest,low.1 < high.1 := by
      intro low lowMember high highMember
      rcases List.mem_append.mp lowMember with member | member
      · exact above low member high (List.mem_cons_of_mem _ highMember)
      · obtain rfl := List.mem_singleton.mp member
        exact sorted.1.1 high highMember
    have step := ih sorted.2 later
    rw [Map.insertAll] at step
    rw [Map.insertAll,List.foldl_cons,first,step]
    simp

end AegisNode.Json
