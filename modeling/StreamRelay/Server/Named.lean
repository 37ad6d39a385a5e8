import StreamRelay.Json
import StreamRelay.Server.Freshness
import StreamRelay.Server.Request

/-! What a request names by its top-level members, and when the search for keys finds
just these. -/
namespace StreamRelay.Server

open Json (Document EndsDigits Integer Kind Member Space Tree digitText digitValue digit_byte)

section Numbers

abbrev InInt (v : Int) : Prop := intMin ≤ v ∧ v ≤ intMax

theorem le_foldl (digits : List Nat) (v : Nat) :
    v ≤ digits.foldl (fun value d => value * 10 + d) v := by
  induction digits generalizing v with
  | nil => exact Nat.le_refl v
  | cons d digits ih => exact Nat.le_trans (by omega) (ih (v * 10 + d))

theorem readDigits_ends {rest : Bytes} (ends : EndsDigits rest) (any : Bool) (v : Nat) :
    readDigits any v rest = if any then some v else none := by
  cases rest with
  | nil => rfl
  | cons c rest =>
    have other : (0x30 ≤ c && c ≤ 0x39) = false := ends c rfl
    rw [readDigits, if_neg (by simp [other])]

theorem readDigits_digits {digits : List Nat} (small : ∀ d ∈ digits, d < 10) {rest : Bytes}
    (ends : EndsDigits rest) (any : Bool) (one : any = true ∨ digits ≠ []) (v : Nat)
    (bound : v ≤ 2147483648) :
    readDigits any v (digitText digits ++ rest) =
      if digits.foldl (fun value d => value * 10 + d) v ≤ 2147483648 then
        some (digits.foldl (fun value d => value * 10 + d) v)
      else none := by
  induction digits generalizing any v with
  | nil =>
    obtain rfl := one.resolve_right (fun more => more rfl)
    rw [List.foldl_nil, if_pos bound]
    exact readDigits_ends ends true v
  | cons d digits ih =>
    obtain ⟨digit, value⟩ := digit_byte (small d (by simp))
    have between : (0x30 ≤ UInt8.ofNat (0x30 + d) && UInt8.ofNat (0x30 + d) ≤ 0x39) = true := digit
    have shape : digitText (d :: digits) ++ rest =
        UInt8.ofNat (0x30 + d) :: (digitText digits ++ rest) := rfl
    rw [shape, readDigits, if_pos between, value, Nat.add_sub_cancel_left, List.foldl_cons]
    dsimp only
    by_cases large : v * 10 + d > 2147483648
    · rw [if_pos large, if_neg]
      have more := le_foldl digits (v * 10 + d)
      omega
    · rw [if_neg large]
      exact ih (fun d member => small d (by simp [member])) true (.inl rfl) _ (by omega)

theorem readInt_integer (n : Integer) {rest : Bytes} (ends : EndsDigits rest) :
    readInt (n.text ++ rest) = if InInt n.value then some n.value else none := by
  obtain ⟨⟨digits, small, nonempty⟩, negative, leading⟩ := n
  have digitsRead := readDigits_digits small ends false (.inr nonempty) 0 (by omega)
  rw [← digitValue] at digitsRead
  have signed (negative : Bool) (text : Bytes)
      (sign : text.head? = some 0x2d ↔ negative = true)
      (digitsLeft : (if negative then text.tail else text) = digitText digits ++ rest) :
      readInt text = if InInt (if negative then -(digitValue digits : Int) else digitValue digits) then
        some (if negative then -(digitValue digits : Int) else digitValue digits) else none := by
    rw [readInt]
    simp only [sign]
    rw [digitsLeft, digitsRead]
    by_cases large : digitValue digits ≤ 2147483648
    · rw [if_pos large]
      dsimp only
      by_cases inInt : InInt (if negative then -(digitValue digits : Int) else digitValue digits)
      · rw [if_pos inInt, if_neg (by simpa using inInt)]
      · rw [if_neg inInt, if_pos (by simp only [InInt] at inInt; simp; omega)]
    · rw [if_neg large, if_neg]
      simp only [InInt, intMin, intMax]
      cases negative <;> simp <;> omega
  cases negative with
  | true => exact signed true (0x2d :: (digitText digits ++ rest)) (by simp) rfl
  | false =>
    refine signed false (digitText digits ++ rest) ?_ rfl
    cases digits with
    | nil => exact absurd rfl nonempty
    | cons d digits =>
      have digit := (digit_byte (small d (by simp))).1
      refine iff_of_false (fun minus => ?_) Bool.false_ne_true
      have same : UInt8.ofNat (0x30 + d) = 0x2d := Option.some.inj minus
      rw [same] at digit
      cases digit

/-- What the bridge reads where a value stands. -/
def reading : Tree .value → Option Int
  | .number n => if InInt n.integer.value then some n.integer.value else none
  | _ => none

theorem readInt_other {v : Tree .value} (other : ∀ n, v ≠ .number n) (rest : Bytes) :
    readInt (v.text ++ rest) = none := by
  obtain ⟨c, body, text, -, first⟩ := v.text_head
  have apart : ¬ (c = 0x2d ∨ Json.isDigit c = true) := by
    intro start
    obtain ⟨n, same⟩ := first start
    exact other n same
  rw [not_or, Bool.not_eq_true] at apart
  have noSign : ¬ (c :: (body ++ rest)).head? = some 0x2d := fun same => apart.1 (Option.some.inj same)
  rw [text, List.cons_append, readInt]
  simp only [if_neg noSign]
  rw [readDigits_ends (Json.endsDigits_cons apart.2 _)]
  rfl

theorem readInt_value (v : Tree .value) {rest : Bytes} (ends : EndsDigits rest) :
    readInt (v.text ++ rest) = reading v := by
  cases v with
  | number n =>
    obtain ⟨more, split, ends⟩ := n.text_integer rest ends
    rw [Tree.text, split]
    exact readInt_integer n.integer ends
  | null | bool | string | array | object => exact readInt_other (fun n same => by cases same) rest

end Numbers

section Keys

/-- The bytes of the key are found at the member that is looked up, or nowhere if
there is none. -/
def Own (key text : Bytes) : Option Member → Prop
  | none => findJsonKey key text = none
  | some m => findJsonKey key text = some (key ++ m.after)

theorem skipJsonWs_space (space : Space) {c : UInt8} (visible : isJsonWs c = false) (rest : Bytes) :
    skipJsonWs (space.bytes ++ c :: rest) = c :: rest := by
  have blank : ∀ c ∈ space.bytes, isJsonWs c = true := space.blank
  rw [skipJsonWs, List.dropWhile_append_of_pos blank, List.dropWhile_cons, visible]
  rfl

theorem skipJsonWs_value (space : Space) (v : Tree .value) (rest : Bytes) :
    skipJsonWs (space.bytes ++ (v.text ++ rest)) = v.text ++ rest := by
  obtain ⟨c, body, text, visible, -⟩ := v.text_head
  rw [text]
  exact skipJsonWs_space space visible (body ++ rest)

/-- Behind the key, the bridge finds the colon and then the value. -/
theorem skipJsonWs_after (m : Member) :
    skipJsonWs m.after = 0x3a :: (m.beforeValue.bytes ++ (m.value.text ++ m.rest)) := by
  rw [Member.after, List.append_assoc]
  exact skipJsonWs_space m.afterKey rfl _

theorem parseJsonIntKey_own {key text : Bytes} {found : Option Member} (own : Own key text found)
    (ends : ∀ m, found = some m → EndsDigits m.rest) :
    parseJsonIntKey key text = found.bind fun m => reading m.value := by
  unfold parseJsonIntKey
  cases found with
  | none =>
    rw [show findJsonKey key text = none from own]
    rfl
  | some m =>
    rw [show findJsonKey key text = some (key ++ m.after) from own]
    simp only [List.drop_left, skipJsonWs_after, skipJsonWs_value]
    exact readInt_value m.value (ends m rfl)

end Keys

section Braces

/-- The search for the closing brace goes over a text as over one byte of no meaning. -/
def Passes (text : Bytes) : Prop :=
  ∀ depth rest, 0 < depth →
    objectInside depth false false (text ++ rest) =
      (objectInside depth false false rest).map (text ++ ·)

theorem passes_nil : Passes [] := by
  intro depth rest inside
  exact Option.map_id'.symm

theorem Passes.append {first second : Bytes} (one : Passes first) (two : Passes second) :
    Passes (first ++ second) := by
  intro depth rest inside
  rw [List.append_assoc, one depth _ inside, two depth rest inside, Option.map_map]
  refine congrArg (Option.map · _) (funext fun tail => ?_)
  exact (List.append_assoc first second tail).symm

theorem passes_byte {c : UInt8} (plain : c ≠ 0x22 ∧ c ≠ 0x7b ∧ c ≠ 0x7d) : Passes [c] := by
  intro depth rest inside
  rw [List.singleton_append, objectInside, if_neg Bool.false_ne_true, if_neg plain.1,
    if_neg plain.2.1, if_neg plain.2.2]
  rfl

theorem passes_bytes {text : Bytes} (plain : ∀ c ∈ text, c ≠ 0x22 ∧ c ≠ 0x7b ∧ c ≠ 0x7d) :
    Passes text := by
  induction text with
  | nil => exact passes_nil
  | cons c text ih =>
    exact (passes_byte (plain c (by simp))).append (ih fun c member => plain c (by simp [member]))

theorem objectInside_plain (depth : Nat) {c : UInt8} (plain : c ≠ 0x22 ∧ c ≠ 0x5c) (rest : Bytes) :
    objectInside depth true false (c :: rest) = (objectInside depth true false rest).map (c :: ·) := by
  rw [objectInside, if_pos rfl, if_neg Bool.false_ne_true, if_neg plain.2, if_neg plain.1]

theorem objectInside_escape (depth : Nat) (c : UInt8) (rest : Bytes) :
    objectInside depth true false (0x5c :: c :: rest) =
      (objectInside depth true false rest).map ([0x5c, c] ++ ·) := by
  rw [objectInside, if_pos rfl, if_neg Bool.false_ne_true, if_pos rfl, objectInside, if_pos rfl,
    if_pos rfl, Option.map_map]
  rfl

theorem hex_plain {c : UInt8} (hex : Json.isHex c = true) : c ≠ 0x22 ∧ c ≠ 0x5c := by
  constructor <;> rintro rfl <;> cases hex

theorem objectInside_item (depth : Nat) (item : Json.Character) (rest : Bytes) :
    objectInside depth true false (item.text ++ rest) =
      (objectInside depth true false rest).map (item.text ++ ·) := by
  cases item with
  | plain c allowed => exact objectInside_plain depth ⟨allowed.1, allowed.2.1⟩ rest
  | escape c allowed => exact objectInside_escape depth c rest
  | unicode first second third fourth hex =>
    have shape : (Json.Character.unicode first second third fourth hex).text ++ rest =
        0x5c :: 0x75 :: first :: second :: third :: fourth :: rest := rfl
    rw [shape, objectInside_escape, objectInside_plain depth (hex_plain (hex first (by simp))),
      objectInside_plain depth (hex_plain (hex second (by simp))),
      objectInside_plain depth (hex_plain (hex third (by simp))),
      objectInside_plain depth (hex_plain (hex fourth (by simp))), Option.map_map, Option.map_map,
      Option.map_map, Option.map_map]
    rfl

theorem objectInside_items (depth : Nat) (body : List Json.Character) (rest : Bytes) :
    objectInside depth true false (body.flatMap Json.Character.text ++ rest) =
      (objectInside depth true false rest).map (body.flatMap Json.Character.text ++ ·) := by
  induction body with
  | nil => exact Option.map_id'.symm
  | cons item body ih =>
    rw [List.flatMap_cons, List.append_assoc, objectInside_item, ih, Option.map_map]
    refine congrArg (Option.map · _) (funext fun tail => ?_)
    exact (List.append_assoc _ _ tail).symm

theorem passes_string (body : List Json.Character) : Passes (Json.stringText body) := by
  intro depth rest inside
  rw [Json.stringText, Json.quoted, List.append_assoc, List.cons_append, objectInside,
    if_neg Bool.false_ne_true, if_pos rfl, objectInside_items, List.singleton_append, objectInside,
    if_pos rfl, if_neg Bool.false_ne_true, if_neg (by decide), if_pos rfl, Option.map_map,
    Option.map_map]
  refine congrArg (Option.map · _) (funext fun tail => ?_)
  simp

theorem Passes.braces {text : Bytes} (passes : Passes text) : Passes (0x7b :: text ++ [0x7d]) := by
  intro depth rest inside
  rw [List.append_assoc, List.cons_append, objectInside, if_neg Bool.false_ne_true, if_neg (by decide),
    if_pos rfl, passes (depth + 1) _ (by omega)]
  rw [List.singleton_append, objectInside, if_neg Bool.false_ne_true, if_neg (by decide),
    if_neg (by decide), if_pos rfl, if_neg (by omega), Nat.add_sub_cancel, Option.map_map, Option.map_map]
  refine congrArg (Option.map · _) (funext fun tail => ?_)
  simp

theorem passes_digits {digits : List Nat} (small : ∀ d ∈ digits, d < 10) :
    Passes (digitText digits) := by
  refine passes_bytes fun c member => ?_
  obtain ⟨d, inside, rfl⟩ := List.mem_map.mp member
  have digit := (digit_byte (small d inside)).1
  refine ⟨?_, ?_, ?_⟩ <;> intro same <;> rw [same] at digit <;> cases digit

theorem passes_number (n : Json.Number) : Passes n.text := by
  obtain ⟨⟨⟨digits, small, nonempty⟩, negative, leading⟩, fraction, exponent⟩ := n
  have sign : Passes (if negative then [0x2d] else []) := by
    cases negative with
    | true => exact passes_byte (by decide)
    | false => exact passes_nil
  refine ((sign.append (passes_digits small)).append ?_).append ?_
  · cases fraction with
    | none => exact passes_nil
    | some f => exact (passes_byte (c := 0x2e) (by decide)).append (passes_digits f.small)
  · cases exponent with
    | none => exact passes_nil
    | some e =>
      obtain ⟨⟨digits, small, nonempty⟩, capital, sign⟩ := e
      have signed : Passes (sign.elim [] fun negative => [if negative then 0x2d else 0x2b]) := by
        cases sign with
        | none => exact passes_nil
        | some negative => exact passes_byte (by cases negative <;> decide)
      have letter : Passes [if capital then 0x45 else 0x65] :=
        passes_byte (by cases capital <;> decide)
      exact (letter.append signed).append (passes_digits small)

theorem passes_space (space : Space) : Passes space.bytes := by
  refine passes_bytes fun c member => ?_
  have blank := space.blank c member
  refine ⟨?_, ?_, ?_⟩ <;> intro same <;> rw [same] at blank <;> cases blank

theorem passes_member (before : Space) (key : List Json.Character) (afterKey : Space) {more : Bytes}
    (passes : Passes more) :
    Passes (before.bytes ++ Json.stringText key ++ afterKey.bytes ++ 0x3a :: more) :=
  (((passes_space before).append (passes_string key)).append (passes_space afterKey)).append
    ((passes_byte (c := 0x3a) (by decide)).append passes)

theorem passes_tree {kind : Kind} (t : Tree kind) : Passes t.text := by
  induction t with
  | null => exact passes_bytes (by simp [Tree.text])
  | bool value => cases value <;> exact passes_bytes (by simp [Tree.text])
  | number n => exact passes_number n
  | string body => exact passes_string body
  | array inside ih =>
    exact ((passes_byte (c := 0x5b) (by decide)).append ih).append (passes_byte (by decide))
  | object inside ih => exact ih.braces
  | noElements space => exact passes_space space
  | someElements elements ih => exact ih
  | element before value after ih =>
    exact ((passes_space before).append ih).append (passes_space after)
  | moreElements before value after rest ih more =>
    exact (((passes_space before).append ih).append (passes_space after)).append
      ((passes_byte (c := 0x2c) (by decide)).append more)
  | noMembers space => exact passes_space space
  | someMembers members ih => exact ih
  | member before key afterKey beforeValue value after ih =>
    exact passes_member before key afterKey
      (((passes_space beforeValue).append ih).append (passes_space after))
  | moreMembers before key afterKey beforeValue value after rest ih more =>
    exact passes_member before key afterKey
      ((((passes_space beforeValue).append ih).append (passes_space after)).append
        ((passes_byte (c := 0x2c) (by decide)).append more))

/-- The search stops at the brace that closes the object. -/
theorem objectInside_object (inside : Tree .object) (rest : Bytes) :
    objectInside 1 false false (inside.text ++ 0x7d :: rest) = some inside.text := by
  rw [passes_tree inside 1 _ Nat.one_pos]
  simp [objectInside]

end Braces

section Members

def streamIdName : Bytes := ascii ['s', 't', 'r', 'e', 'a', 'm', '_', 'i', 'd']

def timeoutMsName : Bytes := ascii ['t', 'i', 'm', 'e', 'o', 'u', 't', '_', 'm', 's']

def roiName : Bytes := ascii ['r', 'o', 'i']

/-- The names of a rectangle's members, the first of each one first. -/
def roiNames : List Bytes :=
  [ascii ['x'], ascii ['y'], ascii ['w'], ascii ['w', 'i', 'd', 't', 'h'], ascii ['h'],
    ascii ['h', 'e', 'i', 'g', 'h', 't']]

/-- The stream that a request names: the first, if it names none. -/
def namedStream (d : Document) : Option Int :=
  match d.lookup streamIdName with
  | none => some 1
  | some m => m.value.integer

def namedTimeout (d : Document) : Option Int :=
  match d.lookup timeoutMsName with
  | none => some 1000
  | some m => m.value.integer

/-- The members of a rectangle, where each side has a short and a long name. -/
def roiMember (inside : Tree .object) (short long : Bytes) : Option Member :=
  (inside.lookup short []).or (inside.lookup long [])

def roiMembers (inside : Tree .object) : List (Option Member) :=
  [inside.lookup (ascii ['x']) [], inside.lookup (ascii ['y']) [],
    roiMember inside (ascii ['w']) (ascii ['w', 'i', 'd', 't', 'h']),
    roiMember inside (ascii ['h']) (ascii ['h', 'e', 'i', 'g', 'h', 't'])]

def namedRectangle (inside : Tree .object) : Option RoiRequest :=
  match (roiMembers inside).map (·.bind fun m => m.value.integer) with
  | [some x, some y, some w, some h] => some ⟨true, x, y, w, h⟩
  | _ => none

def namedRoi (d : Document) : Option RoiRequest :=
  match d.lookup roiName with
  | none => some .none
  | some m =>
    match m.value with
    | .null => some .none
    | .object inside => namedRectangle inside
    | _ => none

/-- What the bridge takes from a request is what its top-level members say. -/
structure Named (d : Document) (request : FrameRequest) : Prop where
  stream : namedStream d = some (request.streamId : Int)
  timeout : namedTimeout d = some request.timeoutMs
  roi : namedRoi d = some request.roi

/-- The bytes of each key are found first at the top-level member of that name, and
nowhere if there is no such member; the same within the rectangle. -/
structure Placed (d : Document) : Prop where
  stream : Own streamIdKey d.text (d.lookup streamIdName)
  timeout : Own timeoutMsKey d.text (d.lookup timeoutMsName)
  roi : Own roiKey d.text (d.lookup roiName)
  rectangle : ∀ m inside, d.lookup roiName = some m → m.value = .object inside →
    ∀ name ∈ roiNames, Own (Json.quoted name) inside.text (inside.lookup name [])

/-- The members are integers, the stream's a positive one of 16 bits. -/
structure InRange (d : Document) : Prop where
  stream : ∀ m, d.lookup streamIdName = some m → ∃ v, m.value.integer = some v ∧ 0 < v ∧ v < 65536
  timeout : ∀ m, d.lookup timeoutMsName = some m → ∃ v, m.value.integer = some v ∧ InInt v
  rectangle : ∀ m inside, d.lookup roiName = some m → m.value = .object inside →
    ∀ found ∈ roiMembers inside, ∃ m v, found = some m ∧ m.value.integer = some v ∧ InInt v

/-- What the member is read as; the first stream, if that is no positive number. -/
def readStream (d : Document) : Int :=
  match (d.lookup streamIdName).bind fun m => reading m.value with
  | some v => if v > 0 then v else 1
  | none => 1

def readRoi (d : Document) : Option RoiRequest :=
  match d.lookup roiName with
  | none => some .none
  | some m =>
    match m.value with
    | .null => some .none
    | .object inside => parseRoiObject inside.text
    | _ => none

/-- The rectangle cannot be read, or the 16 bits of what is read for the stream are no
stream's number. -/
def Refused (cfg : ServerConfig) (d : Document) : Prop :=
  readRoi d = none ∨ State.hasStream cfg ((readStream d).toNat % 65536) = false

end Members

section Requests

variable {d : Document}

theorem Document.ends {name : Bytes} : ∀ m, d.lookup name = some m → EndsDigits m.rest :=
  fun _ found => d.object.lookup_rest found (Json.endsDigits_cons rfl _)

theorem parseRoi_value (v : Tree .value) (rest : Bytes) :
    (if (ascii ['n', 'u', 'l', 'l']).isPrefixOf (v.text ++ rest) then some RoiRequest.none
      else if (v.text ++ rest).head? = some 0x7b then
        (objectInside 1 false false (v.text ++ rest).tail).bind parseRoiObject
      else none) =
      match v with
      | .null => some .none
      | .object inside => parseRoiObject inside.text
      | _ => none := by
  cases v with
  | null => exact if_pos rfl
  | object inside =>
    have shape : (Tree.object inside).text ++ rest = 0x7b :: (inside.text ++ 0x7d :: rest) := by
      simp [Tree.text]
    have notNull : ¬ (ascii ['n', 'u', 'l', 'l']).isPrefixOf (0x7b :: (inside.text ++ 0x7d :: rest)) :=
      Bool.false_ne_true
    have brace : (0x7b :: (inside.text ++ 0x7d :: rest)).head? = some (0x7b : UInt8) := rfl
    rw [shape, if_neg notNull, if_pos brace, List.tail_cons, objectInside_object]
    rfl
  | number n =>
    obtain ⟨c, text, head, first⟩ := n.integer.text_head
    obtain ⟨more, split, -⟩ := n.text_integer [] Json.endsDigits_nil
    have apart : c ≠ 0x6e ∧ c ≠ 0x7b := by
      constructor <;> rintro rfl <;> exact absurd first (by decide)
    rw [Tree.text, ← List.append_nil n.text, split, head]
    simp [ascii, List.isPrefixOf, apart.1.symm, apart.2]
  | bool value => cases value <;> rfl
  | string body => rfl
  | array inside => rfl

theorem parseRoiFromJson_placed (placed : Own roiKey d.text (d.lookup roiName)) :
    parseRoiFromJson d.text = readRoi d := by
  unfold parseRoiFromJson readRoi
  cases found : d.lookup roiName with
  | none =>
    rw [found] at placed
    rw [show findJsonKey roiKey d.text = none from placed]
  | some m =>
    rw [found] at placed
    rw [show findJsonKey roiKey d.text = some (roiKey ++ m.after) from placed]
    simp only [List.drop_left, skipJsonWs_after, skipJsonWs_value]
    exact parseRoi_value m.value m.rest

theorem parseJsonIntKey_inside {inside : Tree .object} {name : Bytes}
    (own : Own (Json.quoted name) inside.text (inside.lookup name [])) :
    parseJsonIntKey (Json.quoted name) inside.text =
      (inside.lookup name []).bind fun m => reading m.value :=
  parseJsonIntKey_own own fun _ found => inside.lookup_rest found Json.endsDigits_nil

theorem reading_inInt {v : Tree .value} {value : Int} (read : reading v = some value) :
    InInt value := by
  unfold reading at read
  split at read
  · split at read
    · obtain rfl := Option.some.inj read
      assumption
    · cases read
  · cases read

theorem reading_integer {v : Tree .value} {value : Int} (integer : v.integer = some value) :
    reading v = if InInt value then some value else none := by
  unfold Tree.integer at integer
  split at integer
  · obtain rfl := Option.some.inj integer
    rfl
  · cases integer

theorem parseStreamId_placed (placed : Placed d) :
    parseStreamIdFromJson d.text = readStream d := by
  have read := parseJsonIntKey_own placed.stream Document.ends
  exact congrArg (fun found : Option Int =>
    match found with
    | some v => if v > 0 then v else 1
    | none => 1) read

theorem parseTimeout_placed (placed : Placed d) :
    parseTimeoutMsFromJson d.text 1000 =
      ((d.lookup timeoutMsName).bind fun m => reading m.value).getD 1000 := by
  rw [parseTimeoutMsFromJson, parseJsonIntKey_own placed.timeout Document.ends]

/-- The stream is the named one exactly if that is in range, given that there is one
of that number. -/
theorem stream_iff (placed : Placed d) {u : Nat}
    (taken : (parseStreamIdFromJson d.text).toNat % 65536 = u) (positive : 0 < u) :
    namedStream d = some (u : Int) ↔
      ∀ m, d.lookup streamIdName = some m → ∃ v, m.value.integer = some v ∧ 0 < v ∧ v < 65536 := by
  rw [parseStreamId_placed placed, readStream] at taken
  unfold namedStream
  cases found : d.lookup streamIdName with
  | none =>
    rw [found] at taken
    obtain rfl : 1 = u := taken
    exact ⟨fun _ _ none => (by cases none), fun _ => rfl⟩
  | some m =>
    rw [found] at taken
    dsimp only [Option.bind_some] at taken ⊢
    constructor
    · intro integer other same
      obtain rfl := Option.some.inj same
      exact ⟨u, integer, by omega, by omega⟩
    · intro inRange
      obtain ⟨v, integer, low, high⟩ := inRange m rfl
      have inInt : InInt v := by simp only [InInt, intMin, intMax]; omega
      rw [reading_integer integer, if_pos inInt] at taken
      dsimp only at taken
      rw [if_pos low] at taken
      rw [integer]
      congr 1
      omega

theorem timeout_iff (placed : Placed d) :
    namedTimeout d = some (parseTimeoutMsFromJson d.text 1000) ↔
      ∀ m, d.lookup timeoutMsName = some m → ∃ v, m.value.integer = some v ∧ InInt v := by
  rw [parseTimeout_placed placed]
  unfold namedTimeout
  cases found : d.lookup timeoutMsName with
  | none => exact ⟨fun _ _ none => (by cases none), fun _ => rfl⟩
  | some m =>
    dsimp only [Option.bind_some]
    constructor
    · intro integer other same
      obtain rfl := Option.some.inj same
      refine ⟨_, integer, ?_⟩
      cases read : reading m.value with
      | none => decide
      | some v => exact reading_inInt read
    · intro inRange
      obtain ⟨v, integer, inInt⟩ := inRange m rfl
      rw [reading_integer integer, if_pos inInt, integer]
      rfl

/-- What is read for a member is a 32-bit number, and the member's own if that is one. -/
structure Agrees (read : Option Int) (found : Option Member) : Prop where
  inInt : ∀ v, read = some v → InInt v
  own : ∀ m v, found = some m → m.value.integer = some v → InInt v → read = some v

theorem agrees_reading (found : Option Member) :
    Agrees (found.bind fun m => reading m.value) found where
  inInt v read := by
    cases found with
    | none => cases read
    | some m => exact reading_inInt read
  own m v same integer inInt := by
    rw [same, Option.bind_some, reading_integer integer, if_pos inInt]

/-- A long name counts where there is no short one. -/
theorem Agrees.or {short long : Option Int} {one two : Option Member} (first : Agrees short one)
    (second : Agrees long two) (absent : one = none → short = none) :
    Agrees (short.or long) (one.or two) where
  inInt v read := by
    cases own : short with
    | some w =>
      rw [own] at read
      exact first.inInt v (own.trans read)
    | none =>
      rw [own, Option.none_or] at read
      exact second.inInt v read
  own m v same integer inInt := by
    cases found : one with
    | some other =>
      rw [found, Option.some_or] at same
      rw [first.own m v (found.trans same) integer inInt, Option.some_or]
    | none =>
      rw [found, Option.none_or] at same
      rw [absent found, Option.none_or]
      exact second.own m v same integer inInt

theorem Agrees.iff {found : Option Member} {v : Int} (agrees : Agrees (some v) found) :
    (found.bind fun m => m.value.integer) = some v ↔
      ∃ m w, found = some m ∧ m.value.integer = some w ∧ InInt w := by
  constructor
  · intro integer
    obtain ⟨m, same, whole⟩ := Option.bind_eq_some_iff.mp integer
    exact ⟨m, v, same, whole, agrees.inInt v rfl⟩
  · rintro ⟨m, w, rfl, whole, inInt⟩
    rw [agrees.own m w rfl whole inInt]
    exact whole

theorem agrees_inside {inside : Tree .object}
    (own : ∀ name ∈ roiNames, Own (Json.quoted name) inside.text (inside.lookup name []))
    {name : Bytes} (member : name ∈ roiNames) :
    Agrees (parseJsonIntKey (Json.quoted name) inside.text) (inside.lookup name []) := by
  rw [parseJsonIntKey_inside (own name member)]
  exact agrees_reading _

theorem agrees_side {inside : Tree .object}
    (own : ∀ name ∈ roiNames, Own (Json.quoted name) inside.text (inside.lookup name []))
    {short long : Bytes} (one : short ∈ roiNames) (two : long ∈ roiNames) :
    Agrees ((parseJsonIntKey (Json.quoted short) inside.text).or
      (parseJsonIntKey (Json.quoted long) inside.text)) (roiMember inside short long) := by
  refine (agrees_inside own one).or (agrees_inside own two) fun absent => ?_
  rw [parseJsonIntKey_inside (own short one), absent]
  rfl

theorem namedRectangle_eq (inside : Tree .object) (x y w h : Int) :
    namedRectangle inside = some ⟨true, x, y, w, h⟩ ↔
      (roiMembers inside).map (·.bind fun m => m.value.integer) = [some x, some y, some w, some h] := by
  unfold namedRectangle
  constructor
  · intro named
    split at named
    case h_1 same =>
      cases named
      exact same
    case h_2 => cases named
  · intro same
    rw [same]

theorem rectangle_iff {inside : Tree .object}
    (own : ∀ name ∈ roiNames, Own (Json.quoted name) inside.text (inside.lookup name []))
    {roi : RoiRequest} (read : parseRoiObject inside.text = some roi) :
    namedRectangle inside = some roi ↔
      ∀ found ∈ roiMembers inside, ∃ m v, found = some m ∧ m.value.integer = some v ∧ InInt v := by
  have readX : Agrees (parseJsonIntKey (jsonKey ['x']) inside.text) (inside.lookup (ascii ['x']) []) :=
    agrees_inside own (by decide)
  have readY : Agrees (parseJsonIntKey (jsonKey ['y']) inside.text) (inside.lookup (ascii ['y']) []) :=
    agrees_inside own (by decide)
  have readW : Agrees ((parseJsonIntKey (jsonKey ['w']) inside.text).or
        (parseJsonIntKey (jsonKey ['w', 'i', 'd', 't', 'h']) inside.text))
      (roiMember inside (ascii ['w']) (ascii ['w', 'i', 'd', 't', 'h'])) :=
    agrees_side own (by decide) (by decide)
  have readH : Agrees ((parseJsonIntKey (jsonKey ['h']) inside.text).or
        (parseJsonIntKey (jsonKey ['h', 'e', 'i', 'g', 'h', 't']) inside.text))
      (roiMember inside (ascii ['h']) (ascii ['h', 'e', 'i', 'g', 'h', 't'])) :=
    agrees_side own (by decide) (by decide)
  unfold parseRoiObject at read
  split at read
  case h_2 => cases read
  case h_1 x y isX isY =>
    split at read
    case h_2 => cases read
    case h_1 w h isW isH =>
      obtain rfl := Option.some.inj read
      rw [isX] at readX
      rw [isY] at readY
      rw [isW] at readW
      rw [isH] at readH
      rw [namedRectangle_eq]
      simp only [roiMembers, List.map_cons, List.map_nil, List.cons.injEq, and_true,
        List.forall_mem_cons, List.not_mem_nil, false_implies, implies_true]
      rw [readX.iff, readY.iff, readW.iff, readH.iff]

theorem roi_iff (placed : Placed d) {roi : RoiRequest}
    (read : parseRoiFromJson d.text = some roi) :
    namedRoi d = some roi ↔
      ∀ m inside, d.lookup roiName = some m → m.value = .object inside →
        ∀ found ∈ roiMembers inside, ∃ m v, found = some m ∧ m.value.integer = some v ∧ InInt v := by
  rw [parseRoiFromJson_placed placed.roi, readRoi] at read
  unfold namedRoi
  cases found : d.lookup roiName with
  | none =>
    rw [found] at read
    exact ⟨fun _ _ _ none => (by cases none), fun _ => read⟩
  | some m =>
    rw [found] at read
    dsimp only at read ⊢
    cases value : m.value with
    | null =>
      rw [value] at read
      refine ⟨fun _ other inside same object => ?_, fun _ => read⟩
      obtain rfl := Option.some.inj same
      rw [value] at object
      cases object
    | object inside =>
      rw [value] at read
      dsimp only at read ⊢
      rw [rectangle_iff (placed.rectangle m inside found value) read]
      constructor
      · intro each other inside' same object
        obtain rfl := Option.some.inj same
        rw [value] at object
        cases object
        exact each
      · exact fun each => each m inside rfl value
    | bool | number | string | array =>
      rw [value] at read
      cases read

/-- For a placed text, a request that is taken up has what the members name exactly if
they are in range. -/
theorem named_iff (cfg : ServerConfig) (placed : Placed d) {request : FrameRequest}
    (taken : frameRequest cfg d.text = .ok request) : Named d request ↔ InRange d := by
  unfold frameRequest at taken
  split at taken
  case h_1 => cases taken
  case h_2 roi read =>
    dsimp only at taken
    split at taken
    case isFalse => cases taken
    case isTrue known =>
      obtain rfl := Except.ok.inj taken
      have positive : 0 < (parseStreamIdFromJson d.text).toNat % 65536 := by
        simp only [State.hasStream, Bool.and_eq_true, decide_eq_true_eq] at known
        omega
      have stream := stream_iff placed rfl positive
      have timeout := timeout_iff placed
      have rectangle := roi_iff placed read
      exact ⟨fun named => ⟨stream.mp named.stream, timeout.mp named.timeout, rectangle.mp named.roi⟩,
        fun inRange => ⟨stream.mpr inRange.stream, timeout.mpr inRange.timeout,
          rectangle.mpr inRange.rectangle⟩⟩

theorem frameRequest_read (cfg : ServerConfig) (placed : Placed d) {roi : RoiRequest}
    (read : readRoi d = some roi) :
    frameRequest cfg d.text =
      if State.hasStream cfg ((readStream d).toNat % 65536) then
        .ok ⟨(readStream d).toNat % 65536, parseTimeoutMsFromJson d.text 1000, roi⟩
      else .error .badStreamId := by
  unfold frameRequest
  simp only [parseRoiFromJson_placed placed.roi, read, parseStreamId_placed placed]

theorem frameRequest_unread (cfg : ServerConfig) (placed : Placed d) (unread : readRoi d = none) :
    frameRequest cfg d.text = .error .badRoi := by
  unfold frameRequest
  simp only [parseRoiFromJson_placed placed.roi, unread]

theorem Refused.error {cfg : ServerConfig} (refused : Refused cfg d) (placed : Placed d) :
    ∃ text, frameRequest cfg d.text = .error text := by
  cases read : readRoi d with
  | none => exact ⟨_, frameRequest_unread cfg placed read⟩
  | some roi =>
    have unknown := refused.resolve_left (by rw [read]; exact Option.some_ne_none roi)
    rw [frameRequest_read cfg placed read]
    exact ⟨_, if_neg (by rw [unknown]; exact Bool.false_ne_true)⟩

/-- For a placed text, the bridge takes no request up for another than the members name exactly
if they are in range or it refuses the text. -/
theorem taken_named_iff (cfg : ServerConfig) (placed : Placed d) :
    (∀ request, frameRequest cfg d.text = .ok request → Named d request) ↔
      InRange d ∨ Refused cfg d := by
  constructor
  · intro named
    rw [or_iff_not_imp_right]
    intro heard
    obtain ⟨readable, known⟩ := not_or.mp heard
    obtain ⟨roi, read⟩ := Option.ne_none_iff_exists'.mp readable
    have taken : frameRequest cfg d.text =
        .ok ⟨(readStream d).toNat % 65536, parseTimeoutMsFromJson d.text 1000, roi⟩ := by
      rw [frameRequest_read cfg placed read]
      exact if_pos (by simpa using known)
    exact (named_iff cfg placed taken).mp (named _ taken)
  · rintro (inRange | refused) request taken
    · exact (named_iff cfg placed taken).mpr inRange
    · obtain ⟨text, error⟩ := refused.error placed
      rw [error] at taken
      cases taken

theorem readStream_inRange (inRange : InRange d) :
    namedStream d = some (readStream d) ∧ 0 < readStream d ∧ readStream d < 65536 := by
  unfold namedStream readStream
  cases found : d.lookup streamIdName with
  | none => exact ⟨rfl, by decide, by decide⟩
  | some m =>
    obtain ⟨v, integer, low, high⟩ := inRange.stream m found
    have inInt : InInt v := by simp only [InInt, intMin, intMax]; omega
    rw [Option.bind_some, reading_integer integer, if_pos inInt]
    dsimp only
    rw [if_pos low]
    exact ⟨integer, low, high⟩

/-- A rectangle in range is read. -/
theorem parseRoiObject_inRange {inside : Tree .object}
    (own : ∀ name ∈ roiNames, Own (Json.quoted name) inside.text (inside.lookup name []))
    (inRange : ∀ found ∈ roiMembers inside, ∃ m v, found = some m ∧ m.value.integer = some v ∧ InInt v) :
    ∃ roi, parseRoiObject inside.text = some roi := by
  simp only [roiMembers, List.forall_mem_cons, List.not_mem_nil, false_implies, implies_true,
    and_true] at inRange
  obtain ⟨⟨mx, x, foundX, isX, inX⟩, ⟨my, y, foundY, isY, inY⟩, ⟨mw, w, foundW, isW, inW⟩,
    ⟨mh, h, foundH, isH, inH⟩⟩ := inRange
  have nameX : ascii ['x'] ∈ roiNames := by decide
  have readX : parseJsonIntKey (jsonKey ['x']) inside.text = some x :=
    (agrees_inside own nameX).own mx x foundX isX inX
  have readY : parseJsonIntKey (jsonKey ['y']) inside.text = some y :=
    (agrees_inside own (by decide)).own my y foundY isY inY
  have readW : (parseJsonIntKey (jsonKey ['w']) inside.text).or
      (parseJsonIntKey (jsonKey ['w', 'i', 'd', 't', 'h']) inside.text) = some w :=
    (agrees_side own (by decide) (by decide)).own mw w foundW isW inW
  have readH : (parseJsonIntKey (jsonKey ['h']) inside.text).or
      (parseJsonIntKey (jsonKey ['h', 'e', 'i', 'g', 'h', 't']) inside.text) = some h :=
    (agrees_side own (by decide) (by decide)).own mh h foundH isH inH
  refine ⟨⟨true, x, y, w, h⟩, ?_⟩
  rw [parseRoiObject, readX, readY]
  simp only [readW, readH]

theorem readRoi_inRange (placed : Placed d) (inRange : InRange d) {roi : RoiRequest}
    (named : namedRoi d = some roi) : readRoi d = some roi := by
  have read : ∃ other, readRoi d = some other := by
    unfold namedRoi at named
    unfold readRoi
    cases found : d.lookup roiName with
    | none => exact ⟨_, rfl⟩
    | some m =>
      rw [found] at named
      dsimp only at named ⊢
      cases value : m.value with
      | null => exact ⟨_, rfl⟩
      | object inside =>
        exact parseRoiObject_inRange (placed.rectangle m inside found value)
          (inRange.rectangle m inside found value)
      | bool | number | string | array =>
        rw [value] at named
        cases named
  obtain ⟨other, read⟩ := read
  have same := (roi_iff placed ((parseRoiFromJson_placed placed.roi).trans read)).mpr inRange.rectangle
  rw [read, ← same, named]

/-- In range, a request for one of the streams is taken up. -/
theorem frameRequest_named {cfg : ServerConfig} (placed : Placed d) (inRange : InRange d)
    {request : FrameRequest} (named : Named d request)
    (known : State.hasStream cfg request.streamId = true) :
    frameRequest cfg d.text = .ok request := by
  obtain ⟨own, low, high⟩ := readStream_inRange inRange
  have stream : readStream d = request.streamId := Option.some.inj (own.symm.trans named.stream)
  have timeout : parseTimeoutMsFromJson d.text 1000 = request.timeoutMs :=
    Option.some.inj (((timeout_iff placed).mpr inRange.timeout).symm.trans named.timeout)
  have small : (readStream d).toNat % 65536 = request.streamId := by omega
  rw [frameRequest_read cfg placed (readRoi_inRange placed inRange named.roi), small, if_pos known,
    timeout]

end Requests

section Replies

variable {Picture : Type*} {cfg : ServerConfig} {codec : Codec Picture} {convert : Conversion Picture}

/-- The bridge after the server took more inputs. -/
def Bridge.later (cfg : ServerConfig) (codec : Codec Picture) (b : Bridge Picture)
    (meanwhile : List Server.Input) : Bridge Picture :=
  {b with server := Run.run (Server.step cfg codec) b.server meanwhile}

/-- An image of a frame that the stream has shown in the run, and of its last one, under the
colours of its metadata, unless the attempt finds another decoder's frame in the cache. -/
structure Pictures (cfg : ServerConfig) (codec : Codec Picture) (convert : Conversion Picture)
    (past : List Bridge.Input) (streamId : Nat) (attempt : ConvertAnswers)
    (frame : BgrFrame Picture) : Prop where
  stream : frame.streamId = streamId
  shown : ∃ earlier, earlier <+: past ∧
    ((Bridge.run cfg codec convert earlier).server.streams streamId).lastFrame = some frame.source
  image : frame.image = convert frame.source.av frame.colorSpace frame.colorRange
  fresh : ¬ Bridge.HitsOtherDecoder cfg (Bridge.run cfg codec convert past) (.convert streamId attempt) →
    ((Bridge.run cfg codec convert past).server.streams streamId).lastFrame = some frame.source ∧
      frame.image = convert frame.source.av
        ((Bridge.run cfg codec convert past).server.streams streamId).info.colorSpace
        ((Bridge.run cfg codec convert past).server.streams streamId).info.colorRange

/-- Some attempt, after what the server took during the wait, gives the frame that the reply is
made of: the image itself, where no rectangle is asked for. -/
def Made (cfg : ServerConfig) (codec : Codec Picture) (convert : Conversion Picture)
    (past : List Bridge.Input) (request : FrameRequest) (cropAlloc : Bool)
    (reply : Reply Picture) : Prop :=
  ∃ (meanwhile : List Input) (attempt : ConvertAnswers) (frame : BgrFrame Picture),
    Pictures cfg codec convert (past ++ meanwhile.map .server) request.streamId attempt frame ∧
      reply = Bridge.replyFrame request cropAlloc frame ∧
      (request.roi.requested = false → 0 < frame.width → 0 < frame.height →
        frame.width * 3 ≤ frame.image.stride → reply = .image frame false)

/-- The image is of the request's stream, cut to the request's rectangle. -/
def Serves (cfg : ServerConfig) (codec : Codec Picture) (convert : Conversion Picture)
    (past : List Bridge.Input) (request : FrameRequest) (cropAlloc : Bool) (image : BgrFrame Picture)
    (roiApplied : Bool) : Prop :=
  State.hasStream cfg request.streamId = true ∧ image.streamId = request.streamId ∧
    Made cfg codec convert past request cropAlloc (.image image roiApplied)

/-- The stream has a picture, and there is memory to convert it. -/
def Ready (b : Bridge Picture) (streamId : Nat) (attempt : ConvertAnswers) : Prop :=
  (∃ frame, (b.server.streams streamId).lastFrame = some frame ∧ 0 < frame.av.width ∧
    0 < frame.av.height) ∧
    attempt.refOk = true ∧ attempt.convertOk = true ∧ attempt.allocOk = true

def Poll.InTime (timeoutMs : Int) (deadlineNs : UInt64) (poll : Poll) : Prop :=
  timeoutMs < 0 ∨ poll.nowNs < deadlineNs

/-- No attempt of the rounds within the time was ready. -/
def PollsMissed (cfg : ServerConfig) (codec : Codec Picture) (b : Bridge Picture) (streamId : Nat)
    (timeoutMs : Int) (deadlineNs : UInt64) (polls : List Poll) : Prop :=
  ∀ before poll rest, polls = before ++ poll :: rest →
    (∀ each ∈ before ++ [poll], each.InTime timeoutMs deadlineNs) →
    ¬ Ready (b.later cfg codec ((before ++ [poll]).flatMap Poll.meanwhile)) streamId poll.answers

def FrameAnswers.deadlineNs (answers : FrameAnswers) (timeoutMs : Int) : UInt64 :=
  answers.nowNs + UInt64.ofNat timeoutMs.toNat * 1000000

/-- No attempt of the wait was ready, neither the first nor one within the time. -/
structure Missed (cfg : ServerConfig) (codec : Codec Picture) (b : Bridge Picture)
    (request : FrameRequest) (answers : FrameAnswers) : Prop where
  first : ¬ Ready b request.streamId answers.first
  polls : request.timeoutMs ≠ 0 → PollsMissed cfg codec b request.streamId request.timeoutMs
    (answers.deadlineNs request.timeoutMs) answers.polls

/-- How a request is answered: with a picture as soon as there is one, else with an error when
the time is over, and not before. -/
inductive Answered (cfg : ServerConfig) (codec : Codec Picture) (convert : Conversion Picture)
    (past : List Bridge.Input) (request : FrameRequest) (answers : FrameAnswers) :
    Option (Reply Picture) → Prop
  | made (reply : Reply Picture) : Made cfg codec convert past request answers.cropAlloc reply →
      Answered cfg codec convert past request answers (some reply)
  | over : Missed cfg codec (Bridge.run cfg codec convert past) request answers →
      Answered cfg codec convert past request answers (some (.error .noFrameYet))
  | unfinished : Missed cfg codec (Bridge.run cfg codec convert past) request answers →
      request.timeoutMs ≠ 0 →
      (∀ poll ∈ answers.polls,
        poll.InTime request.timeoutMs (answers.deadlineNs request.timeoutMs)) →
      Answered cfg codec convert past request answers none

/-- A request is taken for what its members name, every image is of the stream they name, and
what names none of the streams is refused. -/
structure AsNamed (cfg : ServerConfig) (codec : Codec Picture) (convert : Conversion Picture)
    (d : Document) : Prop where
  taken : ∀ request, frameRequest cfg d.text = .ok request → Named d request
  image : ∀ past answers image roiApplied,
    ((Bridge.run cfg codec convert past).getLatestBgr cfg codec convert d.text answers).2 =
      some (.image image roiApplied) →
    ∃ request, Named d request ∧
      Serves cfg codec convert past request answers.cropAlloc image roiApplied
  refused : (∀ v, namedStream d = some v → ¬ (1 ≤ v ∧ v ≤ cfg.maxStreams)) →
    ∀ past answers, ∃ text,
      ((Bridge.run cfg codec convert past).getLatestBgr cfg codec convert d.text answers).2 =
        some (.error text)

theorem Bridge.run_later (past : List Bridge.Input) (meanwhile : List Server.Input) :
    (Bridge.run cfg codec convert past).later cfg codec meanwhile =
      Bridge.run cfg codec convert (past ++ meanwhile.map .server) := by
  have each (b : Bridge Picture) :
      b.later cfg codec meanwhile =
        Run.run (Bridge.step cfg codec convert) b (meanwhile.map .server) := by
    induction meanwhile generalizing b with
    | nil => rfl
    | cons input meanwhile ih => exact ih (Bridge.step cfg codec convert b (.server input))
  rw [each, Bridge.run, Bridge.run, Run.run_append]

theorem convert_none {b : Bridge Picture} {streamId : Nat} {answers : ConvertAnswers}
    (failed : (b.convertLastFrameToBgr cfg convert streamId answers).2 = none) :
    b.convertLastFrameToBgr cfg convert streamId answers = (b, none) := by
  unfold Bridge.convertLastFrameToBgr at failed ⊢
  split at failed
  case h_1 => rfl
  case h_2 snapshot found =>
    dsimp only
    split at failed
    case h_1 => cases failed
    case h_2 =>
      split at failed
      case isTrue denied => exact if_pos denied
      case isFalse => cases failed

theorem convert_ready {b : Bridge Picture} {streamId : Nat} {answers : ConvertAnswers}
    (failed : (b.convertLastFrameToBgr cfg convert streamId answers).2 = none) :
    ¬ Ready b streamId answers := by
  rintro ⟨⟨frame, last, width, height⟩, ref, converted, alloc⟩
  have found : b.snapshot streamId answers = some frame := by
    simp [Bridge.snapshot, last, width, height, ref]
  unfold Bridge.convertLastFrameToBgr at failed
  rw [found] at failed
  dsimp only at failed
  split at failed
  · cases failed
  · simp [converted, alloc] at failed

theorem convert_streamId {b : Bridge Picture} {streamId : Nat} {answers : ConvertAnswers}
    {frame : BgrFrame Picture}
    (given : (b.convertLastFrameToBgr cfg convert streamId answers).2 = some frame) :
    frame.streamId = streamId := by
  unfold Bridge.convertLastFrameToBgr at given
  split at given
  case h_1 => cases given
  case h_2 snapshot found =>
    split at given
    case h_1 cached hit =>
      obtain rfl := Option.some.inj given
      unfold Bridge.cacheHit at hit
      split at hit
      case isFalse => cases hit
      case isTrue =>
        have same := (Option.filter_eq_some_iff.mp hit).2
        simp only [Bridge.cachedBgrFrameMatches, Bool.and_eq_true, decide_eq_true_eq] at same
        exact same.1.1.1.1.1.1.1
    case h_2 =>
      split at given
      case isTrue => cases given
      case isFalse =>
        obtain rfl := Option.some.inj given
        rfl

theorem convert_cache {b : Bridge Picture} {streamId other : Nat} {answers : ConvertAnswers}
    {cached : BgrFrame Picture}
    (stored : (b.convertLastFrameToBgr cfg convert streamId answers).1.cache other = some cached) :
    b.cache other = some cached ∨
      other = streamId ∧ (b.server.streams streamId).lastFrame = some cached.source := by
  unfold Bridge.convertLastFrameToBgr at stored
  cases found : b.snapshot streamId answers with
  | none =>
    rw [found] at stored
    exact .inl stored
  | some snapshot =>
    rw [found] at stored
    dsimp only at stored
    split at stored
    · exact .inl stored
    · split at stored
      · exact .inl stored
      · split at stored
        · by_cases same : other = streamId
          · subst same
            dsimp only at stored
            rw [Function.update_self] at stored
            obtain rfl := Option.some.inj stored
            exact .inr ⟨rfl, (Option.filter_eq_some_iff.mp found).1⟩
          · dsimp only at stored
            rw [Function.update_of_ne same] at stored
            exact .inl stored
        · exact .inl stored

/-- What is in the cache for a stream was the last frame of that stream. -/
theorem cached_shown (past : List Bridge.Input) (streamId : Nat) (cached : BgrFrame Picture)
    (stored : (Bridge.run cfg codec convert past).cache streamId = some cached) :
    ∃ earlier, earlier <+: past ∧
      ((Bridge.run cfg codec convert earlier).server.streams streamId).lastFrame =
        some cached.source := by
  revert streamId cached
  refine Run.history (Bridge.step cfg codec convert) Bridge.start
    (fun past b => ∀ streamId cached, b.cache streamId = some cached →
      ∃ earlier, earlier <+: past ∧
        ((Bridge.run cfg codec convert earlier).server.streams streamId).lastFrame =
          some cached.source) (fun _ _ none => by cases none) ?_ past
  intro past input shown streamId cached stored
  have before (kept : (Bridge.run cfg codec convert past).cache streamId = some cached) :
      ∃ earlier, earlier <+: past ++ [input] ∧
        ((Bridge.run cfg codec convert earlier).server.streams streamId).lastFrame =
          some cached.source := by
    obtain ⟨earlier, front, last⟩ := shown streamId cached kept
    exact ⟨earlier, front.trans (List.prefix_append past [input]), last⟩
  cases input with
  | server input => exact before stored
  | convert other answers =>
    dsimp only [Bridge.step] at stored
    split at stored
    case isFalse => exact before stored
    case isTrue =>
      rcases convert_cache stored with kept | ⟨rfl, last⟩
      · exact before kept
      · exact ⟨past, List.prefix_append past _, last⟩

theorem convert_given {b : Bridge Picture} {streamId : Nat} {attempt : ConvertAnswers}
    {frame : BgrFrame Picture}
    (given : (b.convertLastFrameToBgr cfg convert streamId attempt).2 = some frame) :
    b.cache streamId = some frame ∨
      (b.server.streams streamId).lastFrame = some frame.source ∧
        frame.image = convert frame.source.av frame.colorSpace frame.colorRange := by
  unfold Bridge.convertLastFrameToBgr at given
  cases found : b.snapshot streamId attempt with
  | none =>
    rw [found] at given
    cases given
  | some snapshot =>
    rw [found] at given
    dsimp only at given
    split at given
    case h_1 cached hit =>
      obtain rfl := Option.some.inj given
      exact .inl (Bridge.cacheHit_matches hit).1
    case h_2 =>
      split at given
      case isTrue => cases given
      case isFalse =>
        obtain rfl := Option.some.inj given
        exact .inr ⟨(Option.filter_eq_some_iff.mp found).1, rfl⟩

/-- What an attempt gives is a picture of the stream. -/
theorem pictures_convert {past : List Bridge.Input} {streamId : Nat} {attempt : ConvertAnswers}
    {frame : BgrFrame Picture} (known : State.hasStream cfg streamId = true)
    (given : ((Bridge.run cfg codec convert past).convertLastFrameToBgr cfg convert streamId
      attempt).2 = some frame) :
    Pictures cfg codec convert past streamId attempt frame := by
  have kept : Bridge.Kept codec convert (Bridge.run cfg codec convert past) := Bridge.kept_run past
  have current (none : ¬ Bridge.HitsOtherDecoder cfg (Bridge.run cfg codec convert past)
      (.convert streamId attempt)) :
      Bridge.Fresh cfg convert (Bridge.run cfg codec convert past) (.convert streamId attempt) :=
    (kept.allows_iff (.convert streamId attempt)).mpr none
  rcases convert_given given with stored | ⟨last, image⟩
  · obtain ⟨-, -, image⟩ := kept.cached streamId frame stored
    exact ⟨convert_streamId given, cached_shown past streamId frame stored, image,
      fun none => current none known frame given⟩
  · exact ⟨convert_streamId given, ⟨past, List.prefix_rfl, last⟩, image,
      fun none => current none known frame given⟩

theorem Bridge.later_append (b : Bridge Picture) (first second : List Server.Input) :
    (b.later cfg codec first).later cfg codec second = b.later cfg codec (first ++ second) := by
  simp [Bridge.later, Run.run_append]

section Waiting

variable {timeoutMs : Int} {deadlineNs : UInt64} {streamId : Nat} {b : Bridge Picture} {poll : Poll}

theorem waitFrame_late (late : ¬ poll.InTime timeoutMs deadlineNs) (polls : List Poll) :
    b.waitFrame cfg codec convert timeoutMs deadlineNs streamId (poll :: polls) = (b, .over) :=
  if_neg (by simpa [Poll.InTime] using late)

theorem waitFrame_found (inTime : poll.InTime timeoutMs deadlineNs) {frame : BgrFrame Picture}
    (given : ((b.later cfg codec poll.meanwhile).convertLastFrameToBgr cfg convert streamId
      poll.answers).2 = some frame) (polls : List Poll) :
    (b.waitFrame cfg codec convert timeoutMs deadlineNs streamId (poll :: polls)).2 =
      .frame frame := by
  rw [Bridge.waitFrame, if_pos (by simpa [Poll.InTime] using inTime)]
  unfold Bridge.later at given
  dsimp only
  split
  next made attempted =>
    rw [attempted] at given
    exact congrArg Wait.frame (Option.some.inj given)
  next attempted =>
    rw [attempted] at given
    cases given

theorem waitFrame_next (inTime : poll.InTime timeoutMs deadlineNs)
    (failed : ((b.later cfg codec poll.meanwhile).convertLastFrameToBgr cfg convert streamId
      poll.answers).2 = none) (polls : List Poll) :
    b.waitFrame cfg codec convert timeoutMs deadlineNs streamId (poll :: polls) =
      (b.later cfg codec poll.meanwhile).waitFrame cfg codec convert timeoutMs deadlineNs streamId
        polls := by
  have same := convert_none failed
  unfold Bridge.later at same
  rw [Bridge.waitFrame, if_pos (by simpa [Poll.InTime] using inTime)]
  dsimp only
  rw [same]
  rfl

/-- A wait ends with what an attempt gives. -/
theorem waitFrame_frame (polls : List Poll) {frame : BgrFrame Picture}
    (given : (b.waitFrame cfg codec convert timeoutMs deadlineNs streamId polls).2 = .frame frame) :
    ∃ meanwhile attempt,
      ((b.later cfg codec meanwhile).convertLastFrameToBgr cfg convert streamId attempt).2 =
        some frame := by
  induction polls generalizing b with
  | nil => cases given
  | cons poll polls ih =>
    by_cases inTime : poll.InTime timeoutMs deadlineNs
    · cases attempted : ((b.later cfg codec poll.meanwhile).convertLastFrameToBgr cfg convert
        streamId poll.answers).2 with
      | none =>
        rw [waitFrame_next inTime attempted] at given
        obtain ⟨meanwhile, attempt, shown⟩ := ih given
        rw [Bridge.later_append] at shown
        exact ⟨poll.meanwhile ++ meanwhile, attempt, shown⟩
      | some made =>
        rw [waitFrame_found inTime attempted] at given
        cases given
        exact ⟨poll.meanwhile, poll.answers, attempted⟩
    · rw [waitFrame_late inTime] at given
      cases given

/-- A wait that does not end with a picture has missed none. -/
theorem waitFrame_missed (polls : List Poll)
    (without : ∀ frame,
      (b.waitFrame cfg codec convert timeoutMs deadlineNs streamId polls).2 ≠ .frame frame) :
    PollsMissed cfg codec b streamId timeoutMs deadlineNs polls := by
  induction polls generalizing b with
  | nil =>
    intro before poll rest split
    simp at split
  | cons first polls ih =>
    intro before poll rest split inTime
    have due : first.InTime timeoutMs deadlineNs := by
      cases before with
      | nil => exact (List.cons.inj split).1 ▸ inTime poll (by simp)
      | cons head before => exact (List.cons.inj split).1 ▸ inTime head (by simp)
    cases attempted : ((b.later cfg codec first.meanwhile).convertLastFrameToBgr cfg convert
      streamId first.answers).2 with
    | some made => exact absurd (waitFrame_found due attempted polls) (without made)
    | none =>
      cases before with
      | nil =>
        obtain ⟨rfl, -⟩ := List.cons.inj split
        simpa using convert_ready attempted
      | cons head before =>
        obtain ⟨rfl, later⟩ := List.cons.inj split
        rw [waitFrame_next due attempted] at without
        have missed := ih without before poll rest later fun each among =>
          inTime each (List.mem_cons_of_mem _ among)
        rw [Bridge.later_append] at missed
        exact missed

/-- A wait goes on within the time only. -/
theorem waitFrame_unfinished (polls : List Poll)
    (goes : (b.waitFrame cfg codec convert timeoutMs deadlineNs streamId polls).2 = .unfinished) :
    ∀ poll ∈ polls, poll.InTime timeoutMs deadlineNs := by
  induction polls generalizing b with
  | nil => simp
  | cons first polls ih =>
    by_cases inTime : first.InTime timeoutMs deadlineNs
    · cases attempted : ((b.later cfg codec first.meanwhile).convertLastFrameToBgr cfg convert
        streamId first.answers).2 with
      | none =>
        rw [waitFrame_next inTime attempted] at goes
        exact List.forall_mem_cons.mpr ⟨inTime, ih goes⟩
      | some made =>
        rw [waitFrame_found inTime attempted] at goes
        cases goes
    · rw [waitFrame_late inTime] at goes
      cases goes

end Waiting

theorem replyFrame_streamId {request : FrameRequest} {cropAlloc : Bool}
    {frame image : BgrFrame Picture} {roiApplied : Bool}
    (reply : Bridge.replyFrame request cropAlloc frame = .image image roiApplied) :
    image.streamId = frame.streamId := by
  unfold Bridge.replyFrame at reply
  split at reply
  case h_1 => cases reply
  case h_2 roi =>
    split at reply
    case isFalse =>
      cases reply
      rfl
    case isTrue =>
      split at reply
      case h_1 => cases reply
      case h_2 cropped made =>
        cases reply
        unfold cropBgrFrame at made
        split at made
        case isTrue => cases made
        case isFalse =>
          obtain rfl := Option.some.inj made
          rfl

theorem replyFrame_whole {request : FrameRequest} {cropAlloc : Bool} {frame : BgrFrame Picture}
    (whole : request.roi.requested = false) (width : 0 < frame.width) (height : 0 < frame.height)
    (stride : frame.width * 3 ≤ frame.image.stride) :
    Bridge.replyFrame request cropAlloc frame = .image frame false := by
  have resolved : resolveBgrRoi frame request.roi =
      some ⟨0, 0, frame.width, frame.height, frame.width, frame.height, false⟩ := by
    unfold resolveBgrRoi
    rw [if_neg (by simp; omega), if_pos (by simp [whole])]
  rw [Bridge.replyFrame, resolved]
  exact if_neg Bool.false_ne_true

theorem made_of_given {past : List Bridge.Input} {request : FrameRequest} {cropAlloc : Bool}
    (known : State.hasStream cfg request.streamId = true) (meanwhile : List Input)
    {attempt : ConvertAnswers} {frame : BgrFrame Picture}
    (given : ((Bridge.run cfg codec convert (past ++ meanwhile.map .server)).convertLastFrameToBgr cfg
      convert request.streamId attempt).2 = some frame) :
    Made cfg codec convert past request cropAlloc (Bridge.replyFrame request cropAlloc frame) :=
  ⟨meanwhile, attempt, frame, pictures_convert known given, rfl, replyFrame_whole⟩

theorem frameRequest_known {json : Bytes} {request : FrameRequest}
    (taken : frameRequest cfg json = .ok request) :
    State.hasStream cfg request.streamId = true := by
  unfold frameRequest at taken
  split at taken
  case h_1 => cases taken
  case h_2 =>
    dsimp only at taken
    split at taken
    case isFalse => cases taken
    case isTrue known =>
      obtain rfl := Except.ok.inj taken
      exact known

theorem latestFrame_found {request : FrameRequest} {answers : FrameAnswers} {b : Bridge Picture}
    {frame : BgrFrame Picture}
    (given : (b.convertLastFrameToBgr cfg convert request.streamId answers.first).2 = some frame) :
    (b.latestFrame cfg codec convert request answers).2 = .frame frame := by
  unfold Bridge.latestFrame
  split
  next made attempted =>
    rw [attempted] at given
    exact congrArg Wait.frame (Option.some.inj given)
  next attempted =>
    rw [attempted] at given
    cases given

theorem latestFrame_none {request : FrameRequest} {answers : FrameAnswers} {b : Bridge Picture}
    (failed : (b.convertLastFrameToBgr cfg convert request.streamId answers.first).2 = none) :
    b.latestFrame cfg codec convert request answers =
      if request.timeoutMs = 0 then (b, .over)
      else b.waitFrame cfg codec convert request.timeoutMs (answers.deadlineNs request.timeoutMs)
        request.streamId answers.polls := by
  rw [Bridge.latestFrame, convert_none failed]
  rfl

/-- A request that is taken up is answered. -/
theorem getLatestBgr_answered {json : Bytes} {request : FrameRequest}
    (taken : frameRequest cfg json = .ok request) (past : List Bridge.Input)
    (answers : FrameAnswers) :
    Answered cfg codec convert past request answers
      ((Bridge.run cfg codec convert past).getLatestBgr cfg codec convert json answers).2 := by
  have known := frameRequest_known taken
  unfold Bridge.getLatestBgr
  simp only [taken]
  cases attempted : ((Bridge.run cfg codec convert past).convertLastFrameToBgr cfg convert
    request.streamId answers.first).2 with
  | some frame =>
    have given : ((Bridge.run cfg codec convert (past ++ [].map .server)).convertLastFrameToBgr cfg
        convert request.streamId answers.first).2 = some frame := by
      rw [List.map_nil, List.append_nil]
      exact attempted
    simp only [latestFrame_found attempted]
    exact .made _ (made_of_given known [] given)
  | none =>
    have first := convert_ready attempted
    rw [latestFrame_none attempted]
    by_cases atOnce : request.timeoutMs = 0
    · rw [if_pos atOnce]
      exact .over ⟨first, fun waits => absurd atOnce waits⟩
    · rw [if_neg atOnce]
      rcases waited : ((Bridge.run cfg codec convert past).waitFrame cfg codec convert
        request.timeoutMs (answers.deadlineNs request.timeoutMs) request.streamId
        answers.polls).2 with frame | _ | _
      · obtain ⟨meanwhile, attempt, given⟩ := waitFrame_frame answers.polls waited
        rw [Bridge.run_later] at given
        exact .made _ (made_of_given known meanwhile given)
      · have missed := waitFrame_missed answers.polls (by rw [waited]; exact fun _ => by simp)
        exact .over ⟨first, fun _ => missed⟩
      · have missed := waitFrame_missed answers.polls (by rw [waited]; exact fun _ => by simp)
        exact .unfinished ⟨first, fun _ => missed⟩ atOnce
          (waitFrame_unfinished answers.polls waited)

/-- An image is a reply that was made of a picture. -/
theorem getLatestBgr_image {json : Bytes} {past : List Bridge.Input} {answers : FrameAnswers}
    {image : BgrFrame Picture} {roiApplied : Bool}
    (reply : ((Bridge.run cfg codec convert past).getLatestBgr cfg codec convert json answers).2 =
      some (.image image roiApplied)) :
    ∃ request, frameRequest cfg json = .ok request ∧
      Serves cfg codec convert past request answers.cropAlloc image roiApplied := by
  cases taken : frameRequest cfg json with
  | error text =>
    rw [Bridge.getLatestBgr, taken] at reply
    cases reply
  | ok request =>
    have answered : Answered cfg codec convert past request answers
        ((Bridge.run cfg codec convert past).getLatestBgr cfg codec convert json answers).2 :=
      getLatestBgr_answered taken past answers
    rw [reply] at answered
    cases answered with
    | made _ made =>
      have serves := made
      obtain ⟨meanwhile, attempt, frame, pictures, same, -⟩ := made
      exact ⟨request, rfl, frameRequest_known taken,
        (replyFrame_streamId same.symm).trans pictures.stream, serves⟩

theorem asNamed_iff_taken {d : Document} :
    AsNamed cfg codec convert d ↔
      ∀ request, frameRequest cfg d.text = .ok request → Named d request := by
  refine ⟨AsNamed.taken, fun named => ⟨named, fun past answers image roiApplied reply => ?_,
    fun outside past answers => ?_⟩⟩
  · obtain ⟨request, taken, serves⟩ := getLatestBgr_image reply
    exact ⟨request, named request taken, serves⟩
  · rw [Bridge.getLatestBgr]
    cases taken : frameRequest cfg d.text with
    | error text => exact ⟨text, rfl⟩
    | ok request =>
      have known := frameRequest_known taken
      rw [State.hasStream, Bool.and_eq_true, decide_eq_true_eq, decide_eq_true_eq] at known
      exact absurd (by omega) (outside request.streamId (named request taken).stream)

/-- For a placed text, the requests are taken and answered as their members say exactly if these
are in range or the text is refused; and in range every request for one of the streams is
answered. -/
theorem image_as_named {d : Document} (placed : Placed d) :
    (AsNamed cfg codec convert d ↔ InRange d ∨ Refused cfg d) ∧
      (InRange d → ∀ request, Named d request → State.hasStream cfg request.streamId = true →
        ∀ past answers, Answered cfg codec convert past request answers
          ((Bridge.run cfg codec convert past).getLatestBgr cfg codec convert d.text answers).2) := by
  refine ⟨asNamed_iff_taken.trans (taken_named_iff cfg placed), ?_⟩
  intro inRange request named known past answers
  exact getLatestBgr_answered (frameRequest_named placed inRange named known) past answers

end Replies

section Samples

def noSpace : Space := ⟨[], nofun⟩

/-- A string without escapes. -/
def plainText (text : List Char) : List Json.Character :=
  (ascii text).filterMap fun c =>
    if allowed : c ≠ 0x22 ∧ c ≠ 0x5c ∧ 0x20 ≤ c then some (.plain c allowed) else none

def digit (d : Nat) (small : d < 10) : Tree .value :=
  .number ⟨⟨⟨[d], by simpa using small, by simp⟩, false, by simp⟩, none, none⟩

/-- The text `{"meta":{"stream_id":2},"stream_id":1}`. -/
def nestedRequest : Document where
  before := noSpace
  object := .someMembers
    (.moreMembers noSpace (plainText ['m', 'e', 't', 'a']) noSpace noSpace
      (.object (.someMembers (.member noSpace
        (plainText ['s', 't', 'r', 'e', 'a', 'm', '_', 'i', 'd']) noSpace noSpace
        (digit 2 (by decide)) noSpace)))
      noSpace
      (.member noSpace (plainText ['s', 't', 'r', 'e', 'a', 'm', '_', 'i', 'd']) noSpace noSpace
        (digit 1 (by decide)) noSpace))
  after := noSpace

def wideConvert : Conversion Nat := fun av _ _ => ⟨3840, [UInt8.ofNat av.picture]⟩

/-- Stream 2 has a picture and stream 1 has none. -/
def secondStreamInputs : List Bridge.Input :=
  [.server (.packet ⟨.streamStart, 2, announce 0⟩ (goodPacket 0)),
    .server (.packet ⟨.videoData, 2, [0, 0, 1, 0x65]⟩ (goodPacket 0))]

def secondStream : Bridge Nat :=
  Bridge.run sampleServer Bridge.sampleCodec wideConvert secondStreamInputs

theorem image_of_nested :
    (∃ image : BgrFrame Nat,
      (secondStream.getLatestBgr sampleServer Bridge.sampleCodec wideConvert nestedRequest.text
        ⟨Bridge.goodConvert, 0, [], true⟩).2 = some (.image image false) ∧
      image.streamId = 2 ∧ namedStream nestedRequest = some 1) ∧
      ¬ AsNamed sampleServer Bridge.sampleCodec wideConvert nestedRequest := by
  refine ⟨⟨_, by rfl, by rfl, by rfl⟩, fun asNamed => ?_⟩
  have taken : frameRequest sampleServer nestedRequest.text = .ok ⟨2, 1000, .none⟩ := by rfl
  have other := (asNamed.taken _ taken).stream
  have first : namedStream nestedRequest = some 1 := by rfl
  rw [first] at other
  cases other

/-- The text `{"stream_id":2}`. -/
def plainRequest : Document where
  before := noSpace
  object := .someMembers (.member noSpace
    (plainText ['s', 't', 'r', 'e', 'a', 'm', '_', 'i', 'd']) noSpace noSpace
    (digit 2 (by decide)) noSpace)
  after := noSpace

theorem plainRequest_placed : Placed plainRequest where
  stream := by rfl
  timeout := by rfl
  roi := by rfl
  rectangle m inside found := by cases found

theorem plainRequest_inRange : InRange plainRequest where
  stream m found := by
    cases found
    exact ⟨2, by rfl, by decide, by decide⟩
  timeout m found := by cases found
  rectangle m inside found := by cases found

/-- Stream 2 is asked for where it has a picture. -/
theorem image_as_named_plain :
    (AsNamed sampleServer Bridge.sampleCodec wideConvert plainRequest ↔
      InRange plainRequest ∨ Refused sampleServer plainRequest) ∧
      ∀ answers, Answered sampleServer Bridge.sampleCodec wideConvert secondStreamInputs
        ⟨2, 1000, .none⟩ answers
        (secondStream.getLatestBgr sampleServer Bridge.sampleCodec wideConvert plainRequest.text
          answers).2 :=
  ⟨(image_as_named plainRequest_placed).1,
    (image_as_named plainRequest_placed).2 plainRequest_inRange ⟨2, 1000, .none⟩
      ⟨by rfl, by rfl, by rfl⟩ (by rfl) secondStreamInputs⟩

end Samples

end StreamRelay.Server
