import FastCppServer.Lib.Scan
import FastCppServer.MyData.Json
import Mathlib.Data.Finset.Insert

/-!
# The addresses that are polled

`ParseAddresses` and what `ParseConfig` makes of it. Addresses are numbers, texts and lists of both;
a text has items between commas, each a number or a range. However often an address is named, it is
polled once (`configAddresses_nodup`).
-/

namespace MyGasDetectorPoll

open MyData

/-- `TrimCopy`. -/
def trimCopy (text : List UInt8) : List UInt8 := Scan.trim (fun c => c ∈ [32, 9, 13, 10]) text

/-- What stands behind a sign, where there is one. -/
def afterSign : List UInt8 → List UInt8
  | 43 :: text => text
  | 45 :: text => text
  | text => text

/-- `ParseUnsignedText`. What `stoull` consumes are blanks, a sign and digits. -/
def parseUnsignedText (text : List UInt8) (fieldName : String) : Except String Nat :=
  let normalized := trimCopy text
  if normalized = [] then .error ("字段 " ++ fieldName ++ " 不能为空")
  else if normalized.head? = some 45 then .error ("字段 " ++ fieldName ++ " 不能为负数")
  else
    match Scan.stoull normalized with
    | none => .error "stoull"
    | some parsed =>
      if (afterSign (normalized.dropWhile Scan.isSpace)).all Scan.isDigit then .ok parsed
      else .error ("字段 " ++ fieldName ++ " 必须是十进制整数")

/-- `JsonUnsigned`. -/
def jsonUnsigned (value : Json) (fieldName : String) (dflt : Nat) : Except String Nat :=
  match value with
  | .integer n => if n < 0 then .error ("字段 " ++ fieldName ++ " 不能为负数") else .ok n.toNat
  | .string s => parseUnsignedText s.toUTF8.data.toList fieldName
  | .null => .ok dflt
  | _ => .error ("字段 " ++ fieldName ++ " 必须是非负整数")

/-- `addresses` and `seen`. -/
structure Addresses where
  addresses : List UInt8 := []
  seen : Finset Nat := ∅

/-- The error of an address that is out of its range. -/
def kRange : String := "设备地址必须在 1～255 之间"

/-- `AppendAddress`. -/
def appendAddress (s : Addresses) (address : Nat) : Except String Addresses :=
  if address < 1 ∨ 255 < address then .error kRange
  else if address ∈ s.seen then .ok s
  else .ok { addresses := s.addresses ++ [.ofNat address], seen := insert address s.seen }

/-- The numbers from the first one to the last. -/
def appendRange (s : Addresses) (start finish : Nat) : Except String Addresses :=
  (List.range' start (finish + 1 - start)).foldlM appendAddress s

/-- The texts between the commas, of which the first has begun. After the last comma there may be
nothing. -/
def itemsFrom (item : List UInt8) : List UInt8 → List (List UInt8)
  | [] => [item]
  | c :: text =>
    if c = 44 then
      if text = [] then [item] else item :: itemsFrom [] text
    else itemsFrom (item ++ [c]) text

/-- One turn of the loop of `ParseAddressText`. -/
def parseItem (s : Addresses) (raw : List UInt8) : Except String Addresses :=
  let item := trimCopy raw
  if item = [] then .error "addresses 存在空地址项"
  else
    match Scan.find 45 item with
    | none => do
      let address ← parseUnsignedText item "addresses"
      if 255 < address then .error kRange
      appendAddress s address
    | some dash => do
      if 45 ∈ item.drop (dash + 1) then .error "addresses 范围格式错误"
      let start ← parseUnsignedText (trimCopy (item.take dash)) "addresses"
      let finish ← parseUnsignedText (trimCopy (item.drop (dash + 1))) "addresses"
      if 255 < start ∨ 255 < finish then .error kRange
      if finish < start then .error "addresses 范围的起始地址不能大于结束地址"
      appendRange s start finish

/-- `ParseAddressText`. -/
def parseAddressText (s : Addresses) (text : List UInt8) : Except String Addresses :=
  let normalized := trimCopy text
  if normalized = [] then .error "addresses 不能为空"
  else (itemsFrom [] normalized).foldlM parseItem s

/-- A number of `ParseAddresses`. -/
def parseNumber (s : Addresses) (value : Json) : Except String Addresses := do
  let address ← jsonUnsigned value "addresses" 0
  if 255 < address then .error kRange
  appendAddress s address

/-- One value, of a list or alone. -/
def parseValue (s : Addresses) (value : Json) : Except String Addresses :=
  match value with
  | .string text => parseAddressText s text.toUTF8.data.toList
  | value => parseNumber s value

/-- All of a list, or one value. -/
def parseValues : Json → Except String Addresses
  | .array values => values.foldlM parseValue {}
  | value => parseValue {} value

/-- `ParseAddresses`. -/
def parseAddresses (value : Json) : Except String (List UInt8) := do
  let s ← parseValues value
  if s.addresses = [] then .error "addresses 不能为空" else .ok s.addresses

/-- `FindValue`. -/
def findValue (object : Json) (keys : List String) : Option Json :=
  keys.findSome? fun key =>
    match object.find key with
    | some .null => none
    | field => field

/-- `FindConfigValue`. -/
def findConfigValue (config serialConfig : Json) (keys : List String) : Option Json :=
  (findValue config keys).or (findValue serialConfig keys)

/-- The addresses of `ParseConfig`. -/
def configAddresses (config : Json) : Except String (List UInt8) :=
  if config.isObject then
    match findConfigValue config (config.getObjectOr "serial" config) ["addresses", "address"] with
    | some addresses => parseAddresses addresses
    | none => .ok [1, 2, 3, 4, 5, 6]
  else .error "气体检测仪配置必须是 JSON 对象"

/-! ## Each address once -/

/-- The addresses are those seen, each once. -/
structure Addresses.Distinct (s : Addresses) : Prop where
  nodup : s.addresses.Nodup
  mem_seen : ∀ address ∈ s.addresses, address.toNat ∈ s.seen

variable {s t : Addresses}

/-- At first there are no addresses. -/
theorem Addresses.Distinct.empty : Addresses.Distinct {} :=
  ⟨List.nodup_nil, fun _ h => absurd h List.not_mem_nil⟩

/-- An address is added once. -/
theorem distinct_appendAddress {address : Nat} (hs : s.Distinct)
    (h : appendAddress s address = .ok t) : t.Distinct := by
  rw [appendAddress] at h
  split at h
  · cases h
  · next hrange =>
    split at h
    · cases h
      exact hs
    · next hseen =>
      cases h
      have hnat : (UInt8.ofNat address).toNat = address := by
        rw [UInt8.toNat_ofNat']
        omega
      refine ⟨?_, fun a ha => ?_⟩
      · rw [List.nodup_append]
        refine ⟨hs.nodup, List.nodup_singleton _, fun a ha b hb hab => hseen ?_⟩
        rw [← hnat, ← List.mem_singleton.1 hb, ← hab]
        exact hs.mem_seen a ha
      · rcases List.mem_append.1 ha with ha | ha
        · exact Finset.mem_insert_of_mem (hs.mem_seen a ha)
        · rw [List.mem_singleton.1 ha, hnat]
          exact Finset.mem_insert_self _ _

/-- What a step of a fold keeps, the fold keeps. -/
theorem distinct_foldlM {α : Type} {f : Addresses → α → Except String Addresses}
    (hf : ∀ s a t, s.Distinct → f s a = .ok t → t.Distinct) {l : List α} (hs : s.Distinct)
    (h : l.foldlM f s = .ok t) : t.Distinct := by
  induction l generalizing s with
  | nil => cases h; exact hs
  | cons a l ih =>
    rw [List.foldlM_cons] at h
    cases ha : f s a with
    | error e => rw [ha] at h; cases h
    | ok m =>
      rw [ha] at h
      exact ih (hf s a m hs ha) h

/-- What both of two steps have come to, when the second one succeeds. -/
theorem exists_of_bind_ok {α β : Type} {x : Except String α} {f : α → Except String β} {b : β}
    (h : x >>= f = .ok b) : ∃ a, x = .ok a ∧ f a = .ok b := by
  cases x with
  | error e => cases h
  | ok a => exact ⟨a, rfl, h⟩

/-- An item adds each address once. -/
theorem distinct_parseItem {raw : List UInt8} (hs : s.Distinct) (h : parseItem s raw = .ok t) :
    t.Distinct := by
  rw [parseItem] at h
  dsimp only at h
  split at h
  · cases h
  · split at h
    · obtain ⟨address, -, h⟩ := exists_of_bind_ok h
      split at h
      · cases h
      · exact distinct_appendAddress hs h
    · split at h
      · cases h
      · obtain ⟨start, -, h⟩ := exists_of_bind_ok h
        obtain ⟨finish, -, h⟩ := exists_of_bind_ok h
        split at h
        · cases h
        · split at h
          · cases h
          · exact distinct_foldlM (fun _ _ _ => distinct_appendAddress) hs h

/-- A value adds each address once. -/
theorem distinct_parseValue {value : Json} (hs : s.Distinct) (h : parseValue s value = .ok t) :
    t.Distinct := by
  rw [parseValue.eq_def] at h
  split at h
  · next text =>
    rw [parseAddressText] at h
    split at h
    · cases h
    · exact distinct_foldlM (fun _ _ _ => distinct_parseItem) hs h
  · obtain ⟨address, -, h⟩ := exists_of_bind_ok h
    split at h
    · cases h
    · exact distinct_appendAddress hs h

/-- **No address comes twice.** -/
theorem parseAddresses_nodup {value : Json} {addresses : List UInt8}
    (h : parseAddresses value = .ok addresses) : addresses.Nodup := by
  obtain ⟨s, hs, h⟩ := exists_of_bind_ok h
  have hdistinct : s.Distinct := by
    rw [parseValues.eq_def] at hs
    split at hs
    · exact distinct_foldlM (fun _ _ _ => distinct_parseValue) .empty hs
    · exact distinct_parseValue .empty hs
  split at h
  · cases h
  · cases h
    exact hdistinct.nodup

/-- **Each address is polled once** in a turn. -/
theorem configAddresses_nodup {config : Json} {addresses : List UInt8}
    (h : configAddresses config = .ok addresses) : addresses.Nodup := by
  rw [configAddresses] at h
  split at h
  · split at h
    · exact parseAddresses_nodup h
    · cases h
      decide
  · cases h

example : configAddresses (.object [("addresses", .string "3, 1-4,3,")]) = .ok [3, 1, 2, 4] := by
  decide

end MyGasDetectorPoll
