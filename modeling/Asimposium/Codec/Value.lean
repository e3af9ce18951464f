import Asimposium.Codec.Number
import Asimposium.Render.Canonical

/-!
# Canonical JSON

`canonicalJson` prints a value without white space and with the members of
every object by key; `JSON.parse` reads a text. Values are those of the
runtime: objects list their members in the order of their keys' insertion,
and what is no JSON value at all (`undefined`, a function, a symbol, a
bigint) is `foreign`.
-/

namespace Asimposium.Codec

open Text (isDigit quote)

inductive Value (F : Type) where
  | null
  | bool (value : Bool)
  | num (value : Number F)
  | str (value : Text)
  | arr (elements : List (Value F))
  | obj (members : List (Text × Value F))
  | foreign

variable {F : Type}

/-! ## JSON values -/

mutual

/-- Finite numbers, nothing foreign, and keys that are told apart. -/
def Value.IsJson : Value F → Prop
  | .null => True
  | .bool _ => True
  | .num x => x.isFinite = true
  | .str _ => True
  | .arr vs => ElementsJson vs
  | .obj ms => (ms.map (·.1)).Nodup ∧ MembersJson ms
  | .foreign => False

def ElementsJson : List (Value F) → Prop
  | [] => True
  | v :: vs => v.IsJson ∧ ElementsJson vs

def MembersJson : List (Text × Value F) → Prop
  | [] => True
  | (_, v) :: ms => v.IsJson ∧ MembersJson ms

end

def JsonValue (F : Type) := { v : Value F // v.IsJson }

/-! ## Printing -/

/-- `join(",")`. -/
def join (parts : List Text) : Text := [unit ','].intercalate parts

def memberText (key value : Text) : Text := quote key ++ unit ':' :: value

section Printing

variable (format : FloatFormat F)

mutual

/-- `JSON.stringify(value)` of a JSON value. -/
def stringify : Value F → Text
  | .null => text "null"
  | .bool b => if b then text "true" else text "false"
  | .num x => x.toText format
  | .str t => quote t
  | .arr vs => unit '[' :: (join (elementTexts vs) ++ [unit ']'])
  | .obj ms => unit '\x7b' :: (join (memberTexts ms) ++ [unit '\x7d'])
  | .foreign => text "null"

def elementTexts : List (Value F) → List Text
  | [] => []
  | v :: vs => stringify v :: elementTexts vs

def memberTexts : List (Text × Value F) → List Text
  | [] => []
  | (k, v) :: ms => memberText k (stringify v) :: memberTexts ms

end

def canonicalMember (member : Text × Except String Text) : Except String Text :=
  member.2.map (memberText member.1)

/-- The members of an object by key; the first refusal in that order is the one
that is thrown. -/
def canonicalObject (members : List (Text × Except String Text)) : Except String Text :=
  let sorted := members.insertionSort fun left right => Text.le left.1 right.1 = true
  (sorted.mapM canonicalMember).map fun parts =>
    unit '\x7b' :: (join parts ++ [unit '\x7d'])

mutual

/-- `canonicalJson(value)`. -/
def canonicalJson : Value F → Except String Text
  | .null => .ok (text "null")
  | .bool b => .ok (if b then text "true" else text "false")
  | .num x =>
      if x.isFinite then .ok (x.toText format)
      else .error "canonical JSON numbers must be finite."
  | .str t => .ok (quote t)
  | .arr vs => (canonicalElements vs).map fun parts => unit '[' :: (join parts ++ [unit ']'])
  | .obj ms => canonicalObject (canonicalMembers ms)
  | .foreign => .error "canonical JSON values must be JSON values."

def canonicalElements : List (Value F) → Except String (List Text)
  | [] => .ok []
  | v :: vs => (canonicalJson v).bind fun part => (canonicalElements vs).map (part :: ·)

def canonicalMembers : List (Text × Value F) → List (Text × Except String Text)
  | [] => []
  | (k, v) :: ms => (k, canonicalJson v) :: canonicalMembers ms

end

end Printing

/-! ## Scanning strings -/

def isJsonSpace (u : UInt16) : Bool := u == 0x20 || u == 9 || u == 10 || u == 13

def skipSpace (t : Text) : Text := t.dropWhile isJsonSpace

def hexDigit (u : UInt16) : Option Nat :=
  if isDigit u then some (u.toNat - 48)
  else if unit 'a' ≤ u && u ≤ unit 'f' then some (u.toNat - 87)
  else if unit 'A' ≤ u && u ≤ unit 'F' then some (u.toNat - 55)
  else none

/-- `\uXXXX`. -/
def hexUnit (a b c d : UInt16) : Option UInt16 := do
  let a ← hexDigit a
  let b ← hexDigit b
  let c ← hexDigit c
  let d ← hexDigit d
  some (UInt16.ofNat (4096 * a + 256 * b + 16 * c + d))

def simpleEscape (u : UInt16) : Option UInt16 :=
  if u = unit '"' then some u
  else if u = unit '\\' then some u
  else if u = unit '/' then some u
  else if u = unit 'b' then some 8
  else if u = unit 'f' then some 12
  else if u = unit 'n' then some 10
  else if u = unit 'r' then some 13
  else if u = unit 't' then some 9
  else none

/-- A string after its opening quote, and what follows the closing one. -/
def scanString : Text → Option (Text × Text)
  | [] => none
  | u :: rest =>
      if u = unit '"' then some ([], rest)
      else if u < 0x20 then none
      else if u = unit '\\' then
        match rest with
        | [] => none
        | e :: rest =>
            if e = unit 'u' then
              match rest with
              | a :: b :: c :: d :: rest =>
                  (hexUnit a b c d).bind fun v =>
                    (scanString rest).map fun (t, after) => (v :: t, after)
              | _ => none
            else (simpleEscape e).bind fun v =>
              (scanString rest).map fun (t, after) => (v :: t, after)
      else (scanString rest).map fun (t, after) => (u :: t, after)

/-! ## Parsing -/

def scanWord (word : String) (t : Text) : Option Text :=
  if Text.startsWith t (text word) then some (t.drop (text word).length) else none

section Parsing

variable (format : FloatFormat F)

mutual

/-- A value and what follows it. Every call is on a shorter text, so that the
length of the text is fuel enough. -/
def parseValue : Nat → Text → Option (Value F × Text)
  | 0, _ => none
  | fuel + 1, t =>
      match skipSpace t with
      | [] => none
      | u :: rest =>
          if u = unit '"' then (scanString rest).map fun (t, after) => (.str t, after)
          else if u = unit '[' then
            match skipSpace rest with
            | [] => none
            | v :: after =>
                if v = unit ']' then some (.arr [], after)
                else (parseElements fuel rest).map fun (vs, after) => (.arr vs, after)
          else if u = unit '\x7b' then
            match skipSpace rest with
            | [] => none
            | v :: after =>
                if v = unit '\x7d' then some (.obj [], after)
                else (parseMembers fuel rest).map fun (ms, after) => (.obj ms, after)
          else if u = unit 'n' then (scanWord "null" (u :: rest)).map fun after => (.null, after)
          else if u = unit 't' then
            (scanWord "true" (u :: rest)).map fun after => (.bool true, after)
          else if u = unit 'f' then
            (scanWord "false" (u :: rest)).map fun after => (.bool false, after)
          else (scanNumber (u :: rest)).map fun (token, after) => (.num (token.read format), after)

/-- The elements of an array from one on, past the closing bracket. -/
def parseElements : Nat → Text → Option (List (Value F) × Text)
  | 0, _ => none
  | fuel + 1, t =>
      (parseValue fuel t).bind fun (v, t) =>
        match skipSpace t with
        | [] => none
        | u :: rest =>
            if u = unit ',' then
              (parseElements fuel rest).map fun (vs, after) => (v :: vs, after)
            else if u = unit ']' then some ([v], rest)
            else none

/-- The members of an object from one on, as they are written. -/
def parseMembers : Nat → Text → Option (List (Text × Value F) × Text)
  | 0, _ => none
  | fuel + 1, t =>
      match skipSpace t with
      | [] => none
      | u :: rest =>
          if u = unit '"' then
            (scanString rest).bind fun (key, t) =>
              match skipSpace t with
              | [] => none
              | c :: t =>
                  if c = unit ':' then
                    (parseValue fuel t).bind fun (v, t) =>
                      match skipSpace t with
                      | [] => none
                      | u :: rest =>
                          if u = unit ',' then
                            (parseMembers fuel rest).map fun (ms, after) => ((key, v) :: ms, after)
                          else if u = unit '\x7d' then some ([(key, v)], rest)
                          else none
                  else none
          else none

end

/-- A text that is one value, with every member that is written. -/
def parseText (t : Text) : Option (Value F) :=
  (parseValue format (t.length + 1) t).bind fun (v, after) =>
    if (skipSpace after).isEmpty then some v else none

end Parsing

/-! ## Repeated members -/

def setMember (ms : List (Text × Value F)) (key : Text) (value : Value F) :
    List (Text × Value F) :=
  if ms.any (·.1 == key) then ms.map fun m => if m.1 == key then (key, value) else m
  else ms ++ [(key, value)]

mutual

/-- The object that is built of the members as they are written: the last of
a key holds. -/
def Value.settle : Value F → Value F
  | .arr vs => .arr (settleElements vs)
  | .obj ms => .obj ((settleMembers ms).foldl (fun built m => setMember built m.1 m.2) [])
  | v => v

def settleElements : List (Value F) → List (Value F)
  | [] => []
  | v :: vs => v.settle :: settleElements vs

def settleMembers : List (Text × Value F) → List (Text × Value F)
  | [] => []
  | (k, v) :: ms => (k, v.settle) :: settleMembers ms

end

/-- `JSON.parse(text)`; `none` where it throws. -/
def parseJson (format : FloatFormat F) (t : Text) : Option (Value F) :=
  (parseText format t).map Value.settle

end Asimposium.Codec
