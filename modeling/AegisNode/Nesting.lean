import AegisNode.StdioMcp
import AegisNode.TurnTrace
import AegisNode.WriterVerifier

/-!
How deep the entry of a tool result nests: a result comes out of the frame of a server,
goes into an entry two levels down, and the entry is parsed again by the verifier.
-/
namespace AegisNode.Nesting
open Json Bytes Clock Ledger Mediator TurnLoop TurnTrace Engine StdioMcp

/-- The parser reads what the serializer wrote just when it nests no deeper than the limit;
    the serializer has none. -/
structure Limited (serde : Serde) : Prop where
  reads : ∀ v,ordered v → ((∃ read,serde.fromStr (serde.toString v) = .ok read) ↔ depth v ≤ nestingLimit)

/-! ### Values as they are held -/

mutual
theorem normal_ordered : ∀ v,ordered v → normal v = v
  | .Null,_ => rfl
  | .Bool _,_ => rfl
  | .Number _,_ => rfl
  | .String _,_ => rfl
  | .Array items,sorted => congrArg Value.Array (normalItems_ordered items sorted)
  | .Object fields,sorted => by
    rw [normal,normalFields_ordered fields [] sorted (by simp)]
    rfl

theorem normalItems_ordered : ∀ items,itemsOrdered items → normalItems items = items
  | [],_ => rfl
  | item :: rest,sorted => by
    rw [itemsOrdered,Bool.and_eq_true] at sorted
    rw [normalItems,normal_ordered item sorted.1,normalItems_ordered rest sorted.2]

theorem normalFields_ordered : ∀ (fields : List (String × Value)) (map : Map),fieldsOrdered fields →
    (∀ low ∈ map,∀ high ∈ fields,low.1 < high.1) → normalFields map fields = map ++ fields
  | [],map,_,_ => (List.append_nil map).symm
  | field :: rest,map,sorted,above => by
    simp only [fieldsOrdered,Bool.and_eq_true,List.all_eq_true,decide_eq_true_eq] at sorted
    obtain ⟨⟨higher,inside⟩,later⟩ := sorted
    have first := insert_above field.2 (fun low member => above low member field List.mem_cons_self)
    have next : ∀ low ∈ map ++ [field],∀ high ∈ rest,low.1 < high.1 := by
      intro low member high listed
      rcases List.mem_append.mp member with member | member
      · exact above low member high (List.mem_cons_of_mem _ listed)
      · rw [List.mem_singleton.mp member]
        exact higher high listed
    rw [normalFields,normal_ordered field.2 inside,first,normalFields_ordered rest _ later next,List.append_assoc]
    rfl
end

theorem depth_le_fields {fields : Map} {key : String} {v : Value} (held : Map.get fields key = some v) : depth v ≤ fieldsDepth fields := by
  induction fields with
  | nil => cases held
  | cons field rest ih =>
    rw [get_cons] at held
    rw [fieldsDepth]
    by_cases same : field.1 = key
    · rw [if_pos same] at held
      rw [← Option.some.inj held]
      exact le_max_left _ _
    · rw [if_neg same] at held
      exact (ih held).trans (le_max_right _ _)

/-! ### Values that nest too deep -/

section
open JsonText

mutual
/-- Reading gives up on a value that nests deeper than there is room. -/
theorem read_deep (v : Value) (fuel room : Nat) (rest : List Char) (enough : (write v).length ≤ fuel)
    (deep : room < depth v) (sorted : ordered v) : JsonText.read fuel room (write v ++ rest) = none := by
  obtain ⟨fuel,rfl⟩ : ∃ n,fuel = n+1 := by
    obtain ⟨c,tail,whole,_⟩ := write_start v
    rw [whole,List.length_cons] at enough
    exact ⟨fuel-1,by omega⟩
  match v with
  | .Null => simp [depth] at deep
  | .Bool _ => simp [depth] at deep
  | .Number _ => simp [depth] at deep
  | .String _ => simp [depth] at deep
  | .Array [] =>
    obtain rfl : room = 0 := by simp [depth,itemsDepth] at deep; omega
    simp [write,JsonText.read]
  | .Array (item :: items) =>
    rw [depth,itemsDepth] at deep
    cases room with
    | zero => rw [write,List.cons_append,List.cons_append,JsonText.read]
    | succ room =>
      rw [write,List.cons_append,List.length_cons,List.length_append] at enough
      simp only [ordered,itemsOrdered,Bool.and_eq_true] at sorted
      obtain ⟨c,tail,whole,notEnd⟩ := write_start item
      rw [write,List.cons_append,List.cons_append,List.append_assoc,JsonText.read]
      · by_cases first : room < depth item
        · rw [read_deep item fuel room _ (by omega) first sorted.1]
          rfl
        · rw [read_write item fuel room _ (by omega) (by omega) sorted.1 (stops_items items rest),Option.bind_some,
            readItems_deep items fuel room rest (by omega) (by omega) sorted.2]
          rfl
      · intro other same
        rw [whole,List.cons_append] at same
        exact notEnd (List.cons.inj same).1
  | .Object [] =>
    obtain rfl : room = 0 := by simp [depth,fieldsDepth] at deep; omega
    simp [write,JsonText.read]
  | .Object ((key,value) :: fields) =>
    rw [depth,fieldsDepth] at deep
    cases room with
    | zero =>
      rw [write]
      simp only [List.cons_append,List.append_assoc]
      rw [JsonText.read]
    | succ room =>
      rw [write] at enough
      simp only [List.cons_append,List.length_cons,List.length_append] at enough
      simp only [ordered,fieldsOrdered,Bool.and_eq_true] at sorted
      have named := readKey_quoted key (write value ++ (writeFields fields ++ rest))
      rw [write]
      simp only [List.cons_append,List.append_assoc]
      rw [JsonText.read]
      · rw [named,Option.bind_some]
        by_cases first : room < depth value
        · rw [read_deep value fuel room _ (by omega) first sorted.1.2]
          rfl
        · rw [read_write value fuel room _ (by omega) (by omega) sorted.1.2 (stops_fields fields rest),Option.bind_some,
            readFields_deep fields fuel room rest (by omega) (by simp at deep; omega) sorted.2]
          rfl
      · intro other same
        simp [quoted] at same

theorem readItems_deep (items : List Value) (fuel room : Nat) (rest : List Char) (enough : (writeItems items).length ≤ fuel)
    (deep : room < itemsDepth items) (sorted : itemsOrdered items) : readItems fuel room (writeItems items ++ rest) = none := by
  match items with
  | [] => simp [itemsDepth] at deep
  | item :: items =>
    rw [itemsDepth] at deep
    rw [writeItems,List.cons_append,List.length_cons,List.length_append] at enough
    obtain ⟨fuel,rfl⟩ : ∃ n,fuel = n+1 := ⟨fuel-1,by omega⟩
    simp only [itemsOrdered,Bool.and_eq_true] at sorted
    rw [writeItems,List.cons_append,List.cons_append,List.append_assoc,readItems]
    by_cases first : room < depth item
    · rw [read_deep item fuel room _ (by omega) first sorted.1]
      rfl
    · rw [read_write item fuel room _ (by omega) (by omega) sorted.1 (stops_items items rest),Option.bind_some,
        readItems_deep items fuel room rest (by omega) (by omega) sorted.2]
      rfl

theorem readFields_deep (fields : List (String × Value)) (fuel room : Nat) (rest : List Char)
    (enough : (writeFields fields).length ≤ fuel) (deep : room < fieldsDepth fields) (sorted : fieldsOrdered fields) :
    readFields fuel room (writeFields fields ++ rest) = none := by
  match fields with
  | [] => simp [fieldsDepth] at deep
  | (key,value) :: fields =>
    rw [fieldsDepth] at deep
    rw [writeFields] at enough
    simp only [List.cons_append,List.length_cons,List.length_append] at enough
    obtain ⟨fuel,rfl⟩ : ∃ n,fuel = n+1 := ⟨fuel-1,by omega⟩
    simp only [fieldsOrdered,Bool.and_eq_true] at sorted
    have named := readKey_quoted key (write value ++ (writeFields fields ++ rest))
    rw [writeFields]
    simp only [List.cons_append,List.append_assoc]
    rw [readFields,named,Option.bind_some]
    by_cases first : room < depth value
    · rw [read_deep value fuel room _ (by omega) first sorted.1.2]
      rfl
    · rw [read_write value fuel room _ (by omega) (by omega) sorted.1.2 (stops_fields fields rest),Option.bind_some,
        readFields_deep fields fuel room rest (by omega) (by simp at deep; omega) sorted.2]
      rfl
end

theorem serde_limited : Limited serde where
  reads := by
    intro v sorted
    constructor
    · rintro ⟨found,read⟩
      by_contra deep
      have none := read_deep v ((write v).length+1) nestingLimit [] (by omega) (by omega) sorted
      rw [List.append_nil] at none
      have stuck : serde.fromStr (serde.toString v) = .error "invalid JSON" := by
        change readAll (String.ofList (write v)) = _
        rw [readAll,String.toList_ofList,String.length_ofList,none]
      rw [stuck] at read
      cases read
    · intro shallow
      exact ⟨v,readAll_write v sorted shallow⟩

end

/-! ### The entry of a result -/

section
variable [Chrono] [Serde] [Sha256]

/-- The verifier can read the line as JSON. -/
def Parses (line : List UInt8) : Prop := ∃ text v,decode line = some text ∧ Serde.fromStr text = .ok v

/-- A result that is named by its hash, or nests at most 125 arrays and objects. -/
def Fits (v : Value) : Prop :=
  (encode (Serde.toString (toolCallResultToValue (.Success v)))).length > inlineThresholdBytes ∨ depth v ≤ nestingLimit-2

omit [Chrono] [Serde] [Sha256] in
theorem success_value (v : Value) : toolCallResultToValue (.Success v) = .Object [("status",.String "success"),("value",v)] := by
  have other : ¬ "value" = "status" := by decide
  have later : ¬ "value" < "status" := by decide
  rw [toolCallResultToValue,object]
  simp only [Map.insertAll,List.foldl_cons,List.foldl_nil,Map.insert]
  rw [if_neg other,if_neg later]

end

theorem get_ordered {fields : Map} (sorted : fieldsOrdered fields) {key : String} {v : Value} (member : (key,v) ∈ fields) (map : Map) :
    (map.insertAll fields).get key = some v := by
  induction fields generalizing map with
  | nil => cases member
  | cons field rest ih =>
    simp only [fieldsOrdered,Bool.and_eq_true,List.all_eq_true,decide_eq_true_eq] at sorted
    obtain ⟨⟨above,-⟩,later⟩ := sorted
    rcases List.mem_cons.mp member with rfl | member
    · have absent : ∀ other ∈ rest,other.1 ≠ key := fun other listed => (above other listed).ne'
      change ((map.insert key v).insertAll rest).get key = some v
      rw [get_insertAll_of_absent absent,get_insert,if_pos rfl]
    · exact ih later member (map.insert field.1 field.2)

theorem mem_of_get {fields : Map} {key : String} {v : Value} (held : Map.get fields key = some v) : (key,v) ∈ fields := by
  obtain ⟨field,found,rfl⟩ := Option.map_eq_some_iff.mp held
  have same : field.1 = key := by simpa using List.find?_some found
  rw [← same]
  exact List.mem_of_find?_eq_some found

/-- The payload's fields are fields of the entry, also those of the writer's names. -/
theorem get_entry [Chrono] (w : LedgerWriter) {entry : Entry} {key : String} {v : Value}
    (held : Map.get entry.payload.fields key = some v) : Map.get (entryObject w entry) key = some v :=
  get_ordered entry.payload.sorted (mem_of_get held) _

section
variable [Chrono] [Serde] [Sha256]

omit [Sha256] in
theorem parses_iff (limited : Limited ‹Serde›) (w : LedgerWriter) (entry : Entry) :
    Parses (entryLine w entry) ↔ depth (.Object (entryObject w entry)) ≤ nestingLimit := by
  rw [← limited.reads _ (WriterVerifier.ordered_entryObject w entry)]
  constructor
  · rintro ⟨text,v,decoded,read⟩
    rw [entryLine,decode_encode] at decoded
    rw [← Option.some.inj decoded] at read
    exact ⟨v,read⟩
  · rintro ⟨v,read⟩
    exact ⟨_,v,decode_encode _,read⟩

omit [Chrono] [Serde] [Sha256] in
theorem depth_payload (fields : List (String × Scalar)) :
    fieldsDepth (payloadOf fields).fields ≤ fieldsDepth (fields.map fun field => (field.1,field.2.value)) := by
  have inserted := fieldsDepth_insertAll (fields.map fun field => (field.1,field.2.value)) []
  rwa [fieldsDepth,max_eq_left (Nat.zero_le _)] at inserted

omit [Chrono] [Serde] [Sha256] in
theorem success_held {v : Value} (held : ordered v) :
    (Scalar.Json (toolCallResultToValue (.Success v))).value = .Object [("status",.String "success"),("value",v)] := by
  have before : "status" < "value" := by decide
  have sorted : ordered (.Object [("status",.String "success"),("value",v)]) := by
    rw [ordered,fieldsOrdered,List.all_cons,decide_eq_true before]
    simp [fieldsOrdered,ordered,held]
  rw [Scalar.value,success_value]
  exact normal_ordered _ sorted

/-- A result that is named by its hash does not deepen its entry. -/
theorem depth_named {v : Value} (w : LedgerWriter) (entry : Entry) (turn callIndex : Nat)
    (wrote : entry.payload = payloadOf (resultedFields turn callIndex (.Success v)))
    (large : (encode (Serde.toString (toolCallResultToValue (.Success v)))).length > inlineThresholdBytes) :
    depth (.Object (entryObject w entry)) ≤ nestingLimit := by
  have named : resultField (sha256HexOfJson (toolCallResultToValue (.Success v))) (toolCallResultToValue (.Success v)) =
      ("resultPayloadRef",.Text ("pending-sidecar:" ++ sha256HexOfJson (toolCallResultToValue (.Success v)) ++ "." ++
        toString (encode (Serde.toString (toolCallResultToValue (.Success v)))).length ++ "b")) := if_neg (not_le.mpr large)
  apply WriterVerifier.depth_entryObject
  have bound := depth_payload (resultedFields turn callIndex (.Success v))
  rw [← wrote,resultedFields,toolResultFields,named] at bound
  simp only [List.map_cons,List.map_nil,fieldsDepth,Scalar.value,turnNumber,depth,max_self] at bound
  rw [nestingLimit]
  omega

/-- A result in its entry is two levels down. -/
theorem depth_inlined {v : Value} (held : ordered v) (w : LedgerWriter) (entry : Entry) (turn callIndex : Nat)
    (wrote : entry.payload = payloadOf (resultedFields turn callIndex (.Success v)))
    (small : (encode (Serde.toString (toolCallResultToValue (.Success v)))).length ≤ inlineThresholdBytes) :
    depth (.Object (entryObject w entry)) = depth v+2 := by
  have inlined : resultField (sha256HexOfJson (toolCallResultToValue (.Success v))) (toolCallResultToValue (.Success v)) =
      ("resultPayload",.Json (toolCallResultToValue (.Success v))) := if_pos small
  have deep : depth (.Object [("status",.String "success"),("value",v)]) = 1+depth v := by simp [depth,fieldsDepth]
  have above : fieldsDepth entry.payload.fields ≤ 1+depth v := by
    have bound := depth_payload (resultedFields turn callIndex (.Success v))
    rw [← wrote,resultedFields,toolResultFields,inlined] at bound
    simp only [List.map_cons,List.map_nil,fieldsDepth,success_held held,deep] at bound
    simpa [Scalar.value,turnNumber,depth] using bound
  have got : Map.get entry.payload.fields "resultPayload" = some (.Object [("status",.String "success"),("value",v)]) := by
    rw [wrote,Entries.get_payloadOf,resultedFields,toolResultFields,inlined,← success_held held]
    rfl
  have below := depth_le_fields (get_entry w got)
  have flattened := fieldsDepth_insertAll entry.payload.fields (Map.insertAll [] (chainFields w entry))
  have own := fieldsDepth_insertAll (chainFields w entry) []
  rw [WriterVerifier.fieldsDepth_chainFields,fieldsDepth,max_self] at own
  rw [deep,entryObject] at below
  rw [depth,entryObject]
  omega

/-- The entry of a result can be parsed just when the result fits. -/
theorem result_entry_parses (limited : Limited ‹Serde›) {v : Value} (held : ordered v) (w : LedgerWriter) (entry : Entry)
    (turn callIndex : Nat) (wrote : entry.payload = payloadOf (resultedFields turn callIndex (.Success v))) :
    Parses (entryLine w entry) ↔ Fits v := by
  rw [parses_iff limited,Fits]
  by_cases large : (encode (Serde.toString (toolCallResultToValue (.Success v)))).length > inlineThresholdBytes
  · exact iff_of_true (depth_named w entry turn callIndex wrote large) (.inl large)
  · rw [depth_inlined held w entry turn callIndex wrote (not_lt.mp large)]
    have limit : nestingLimit = 127 := rfl
    constructor
    · intro shallow
      exact .inr (by omega)
    · rintro (size | shallow)
      · exact absurd size large
      · omega

end

/-! ### A result at the limit -/

/-- Empty arrays in one another. -/
def nested : Nat → Value
  | 0 => .Array []
  | n+1 => .Array [nested n]

theorem nested_depth (n : Nat) : depth (nested n) = n+1 := by
  induction n with
  | zero => rfl
  | succ n ih => rw [nested,depth,itemsDepth,itemsDepth,ih,Nat.max_zero,Nat.add_comm]

theorem nested_ordered (n : Nat) : ordered (nested n) := by
  induction n with
  | zero => rfl
  | succ n ih => simp [nested,ordered,itemsOrdered,ih]

theorem write_nested (n : Nat) : (JsonText.write (nested n)).length = 2*(n+1) := by
  induction n with
  | zero => rfl
  | succ n ih =>
    rw [nested,JsonText.write,JsonText.writeItems,List.length_append,List.length_cons,ih]
    simp only [List.length_singleton]
    omega

theorem encode_length_le (text : String) : (encode text).length ≤ 4*text.toList.length := by
  rw [encode]
  induction text.toList with
  | nil => exact Nat.le_refl 0
  | cons c rest ih =>
    have size := Char.utf8Size_le_four c
    rw [List.flatMap_cons,List.length_append,List.length_cons,String.length_utf8EncodeChar]
    omega

theorem nested_small {n : Nat} (few : n ≤ 1000) :
    (encode (JsonText.serde.toString (toolCallResultToValue (.Success (nested n))))).length ≤ inlineThresholdBytes := by
  have status : (JsonText.quoted "status").length = 8 := by decide
  have success : (JsonText.quoted "success").length = 9 := by decide
  have value : (JsonText.quoted "value").length = 7 := by decide
  refine (encode_length_le _).trans ?_
  rw [success_value]
  change 4*(String.ofList (JsonText.write _)).toList.length ≤ _
  rw [String.toList_ofList,JsonText.write,JsonText.writeFields,JsonText.writeFields,JsonText.write]
  simp only [List.length_append,List.length_cons,write_nested,status,success,value,List.length_nil,inlineThresholdBytes]
  omega

/-- The frame of a server that answers the first request with a result. -/
def frame (v : Value) : Value := .Object [("id",.Number (.PosInt 1)),("jsonrpc",.String "2.0"),("result",v)]

def frameLine (v : Value) : String := String.ofList (JsonText.write (frame v))

/-- The client returns a result that nests less deep than the frame may. -/
theorem frame_returns {v : Value} (held : ordered v) (shallow : depth v < nestingLimit) (present : v ≠ .Null) :
    @settle (@readMessage frames (.Line (frameLine v))) = .ok v := by
  have sorted : ordered (frame v) := by
    have first : "id" < "jsonrpc" := by decide
    have second : "id" < "result" := by decide
    have third : "jsonrpc" < "result" := by decide
    rw [frame,ordered,fieldsOrdered,List.all_cons,List.all_cons,decide_eq_true first,decide_eq_true second,fieldsOrdered,
      List.all_cons,decide_eq_true third]
    simp [fieldsOrdered,ordered,held]
  have fits : depth (frame v) ≤ nestingLimit := by
    simp only [frame,depth,fieldsDepth]
    omega
  have read : JsonText.readAll (frameLine v) = .ok (frame v) := JsonText.readAll_write _ sorted fits
  have text : frameText (frameLine v) = frameLine v := by
    have single : '\n' ∉ (frameLine v).toList := by
      rw [frameLine,String.toList_ofList]
      exact JsonText.write_line _
    rw [frameText,List.rdropWhile_eq_self_iff.mpr,String.ofList_toList]
    intro nonempty last
    exact single (of_decide_eq_true last ▸ List.getLast_mem nonempty)
  have full : frameLine v ≠ "" := by
    intro empty
    obtain ⟨c,rest,start,-⟩ := JsonText.write_start (frame v)
    rw [frameLine,start] at empty
    simpa using congrArg String.toList empty
  have response : decodeResponse (frame v) = .ok ⟨"2.0",some 1,some v,none⟩ := by
    have version : Map.get [("id",.Number (.PosInt 1)),("jsonrpc",.String "2.0"),("result",v)] "jsonrpc" = some (.String "2.0") := by
      simp [get_cons]
    have id : Map.get [("id",.Number (.PosInt 1)),("jsonrpc",.String "2.0"),("result",v)] "id" = some (.Number (.PosInt 1)) := by
      simp [get_cons]
    have result : Map.get [("id",.Number (.PosInt 1)),("jsonrpc",.String "2.0"),("result",v)] "result" = some v := by
      simp [get_cons]
    have error : Map.get [("id",.Number (.PosInt 1)),("jsonrpc",.String "2.0"),("result",v)] "error" = none := by
      simp [get_cons]
    have inline : StdioMcp.optional .ok (some v) = .ok (some v) := by
      cases v with
      | Null => exact absurd rfl present
      | _ => rfl
    rw [frame,decodeResponse,version,id,result,error,inline]
    rfl
  have decoded : @Frames.fromStr frames (frameText (frameLine v)) = .ok ⟨"2.0",some 1,some v,none⟩ := by
    rw [text]
    change (JsonText.readAll (frameLine v)).bind decodeResponse = _
    rw [read]
    exact response
  have answered : @readMessage frames (.Line (frameLine v)) = .ok ⟨"2.0",some 1,some v,none⟩ := by
    unfold readMessage
    dsimp only
    rw [if_neg full,decoded]
    rfl
  rw [answered]
  rfl

section
open TamperEvidence WriterVerifier

/-- The entry of a first result. -/
def resultEntry [Serde] [Sha256] (v : Value) : Entry :=
  ⟨"s",.ToolResult,genesisPrevHash,0,payloadOf (resultedFields 0 0 (.Success v))⟩

def freshWriter : LedgerWriter := create "s" (fun _ => nilUuid) .V2 []

/-- An entry whose result is null. -/
theorem result_entry_parses_null :
    let _ := epochChrono
    let _ := JsonText.serde
    let _ := tableSha256 []
    Parses (entryLine freshWriter (resultEntry .Null)) ↔ Fits .Null :=
  @result_entry_parses epochChrono JsonText.serde (tableSha256 []) serde_limited .Null rfl freshWriter _ 0 0 rfl

/-- A server answers with arrays of depth 126, which the client returns; the entry with
    them is two levels too deep for the verifier's parser. -/
theorem deep_result_unread :
    let _ := epochChrono
    let _ := JsonText.serde
    let _ := tableSha256 []
    ¬ ∀ v,(∃ line,@settle (@readMessage frames (.Line line)) = .ok v) → ∀ (w : LedgerWriter) (entry : Entry) (turn callIndex : Nat),
      entry.payload = payloadOf (resultedFields turn callIndex (.Success v)) → Parses (entryLine w entry) := by
  intro chrono serde sha parses
  have shallow : depth (nested 125) < nestingLimit := by
    rw [nested_depth]
    decide
  have returned := frame_returns (nested_ordered 125) shallow fun null => by simpa [null,depth] using nested_depth 125
  have parsed := parses (nested 125) ⟨_,returned⟩ freshWriter (resultEntry (nested 125)) 0 0 rfl
  rw [parses_iff serde_limited,depth_inlined (nested_ordered 125) _ _ 0 0 rfl (nested_small (by decide)),nested_depth] at parsed
  exact absurd parsed (by decide)

end

end AegisNode.Nesting
