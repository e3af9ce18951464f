import Asimposium.Lib.Bits32
import Asimposium.Render.Text

/-!
# SHA-256 over UTF-8 text

`utf8Bytes` encodes a string by code point, half of a surrogate pair in its
three-byte form. `sha256Bytes` pads a message of bytes, and folds the blocks
into a hash of eight words. The array of the message schedule is made once,
and every block writes it anew.

Numbers are integers: what the code computes stays below `2 ^ 53`.
-/

namespace Asimposium.Sha256

open Bits32

/-! ## UTF-8 -/

/-- `character.codePointAt(0) ?? 0`. -/
def codePointAt : Text → Int
  | [] => 0
  | [u] => u.toNat
  | u :: v :: _ =>
      if Text.isHighSurrogate u && Text.isLowSurrogate v then
        (u.toNat - 0xd800) * 0x400 + (v.toNat - 0xdc00) + 0x10000
      else u.toNat

def encodePoint (codePoint : Int) : List Int :=
  if codePoint < 0x80 then [codePoint]
  else if codePoint < 0x800 then
    [bor 0xc0 (shr codePoint 6), bor 0x80 (band codePoint 0x3f)]
  else if codePoint < 0x10000 then
    [bor 0xe0 (shr codePoint 12), bor 0x80 (band (shr codePoint 6) 0x3f),
      bor 0x80 (band codePoint 0x3f)]
  else
    [bor 0xf0 (shr codePoint 18), bor 0x80 (band (shr codePoint 12) 0x3f),
      bor 0x80 (band (shr codePoint 6) 0x3f), bor 0x80 (band codePoint 0x3f)]

/-- `utf8Bytes`. -/
def utf8Bytes (t : Text) : List Int :=
  t.codePoints.flatMap fun character => encodePoint (codePointAt character)

/-! ## Constants -/

/-- `K`. -/
def K : List Int := [
  0x428a2f98, 0x71374491, 0xb5c0fbcf, 0xe9b5dba5, 0x3956c25b, 0x59f111f1, 0x923f82a4, 0xab1c5ed5,
  0xd807aa98, 0x12835b01, 0x243185be, 0x550c7dc3, 0x72be5d74, 0x80deb1fe, 0x9bdc06a7, 0xc19bf174,
  0xe49b69c1, 0xefbe4786, 0x0fc19dc6, 0x240ca1cc, 0x2de92c6f, 0x4a7484aa, 0x5cb0a9dc, 0x76f988da,
  0x983e5152, 0xa831c66d, 0xb00327c8, 0xbf597fc7, 0xc6e00bf3, 0xd5a79147, 0x06ca6351, 0x14292967,
  0x27b70a85, 0x2e1b2138, 0x4d2c6dfc, 0x53380d13, 0x650a7354, 0x766a0abb, 0x81c2c92e, 0x92722c85,
  0xa2bfe8a1, 0xa81a664b, 0xc24b8b70, 0xc76c51a3, 0xd192e819, 0xd6990624, 0xf40e3585, 0x106aa070,
  0x19a4c116, 0x1e376c08, 0x2748774c, 0x34b0bcb5, 0x391c0cb3, 0x4ed8aa4a, 0x5b9cca4f, 0x682e6ff3,
  0x748f82ee, 0x78a5636f, 0x84c87814, 0x8cc70208, 0x90befffa, 0xa4506ceb, 0xbef9a3f7, 0xc67178f2]

def initialHash : List Int := [
  0x6a09e667, 0xbb67ae85, 0x3c6ef372, 0xa54ff53a, 0x510e527f, 0x9b05688c, 0x1f83d9ab, 0x5be0cd19]

/-! ## Padding -/

/-- `while (message.length % 64 !== 56) message.push(0)`. -/
def pushZeros (message : List Int) : List Int :=
  if message.length % 64 ≠ 56 then pushZeros (message ++ [0]) else message
termination_by (120 - message.length % 64) % 64
decreasing_by
  rw [List.length_append, List.length_singleton]
  omega

def wordBytes (word : Int) : List Int :=
  [band (ushr word 24) 0xff, band (ushr word 16) 0xff, band (ushr word 8) 0xff, band word 0xff]

def padded (input : List Int) : List Int :=
  let bitLength : Int := input.length * 8
  let message := pushZeros (input ++ [0x80])
  let high := bitLength / 0x100000000
  let low := ushr bitLength 0
  message ++ wordBytes high ++ wordBytes low

/-! ## Blocks -/

def rotr (value bits : Int) : Int := ushr (bor (ushr value bits) (shl value (32 - bits))) 0

/-- `array[i] ?? 0`. -/
def entry (array : List Int) (i : Nat) : Int := array.getD i 0

def loadWord (message : List Int) (chunk : Nat) (w : List Int) (i : Nat) : List Int :=
  let o := chunk + i * 4
  w.set i (ushr (bor (bor (bor (shl (entry message o) 24) (shl (entry message (o + 1)) 16))
    (shl (entry message (o + 2)) 8)) (entry message (o + 3))) 0)

/-- The second loop of a block: one word of the schedule. -/
def extendWord (w : List Int) (i : Nat) : List Int :=
  let x := entry w (i - 15)
  let y := entry w (i - 2)
  let s0 := ushr (bxor (bxor (rotr x 7) (rotr x 18)) (ushr x 3)) 0
  let s1 := ushr (bxor (bxor (rotr y 17) (rotr y 19)) (ushr y 10)) 0
  w.set i (ushr (entry w (i - 16) + s0 + entry w (i - 7) + s1) 0)

structure Vars where
  a : Int
  b : Int
  c : Int
  d : Int
  e : Int
  f : Int
  g : Int
  h : Int

def round (w : List Int) (s : Vars) (i : Nat) : Vars :=
  let s1 := ushr (bxor (bxor (rotr s.e 6) (rotr s.e 11)) (rotr s.e 25)) 0
  let ch := ushr (bxor (band s.e s.f) (band (bnot s.e) s.g)) 0
  let temp1 := ushr (s.h + s1 + ch + entry K i + entry w i) 0
  let s0 := ushr (bxor (bxor (rotr s.a 2) (rotr s.a 13)) (rotr s.a 22)) 0
  let maj := ushr (bxor (bxor (band s.a s.b) (band s.a s.c)) (band s.b s.c)) 0
  let temp2 := ushr (s0 + maj) 0
  { a := ushr (temp1 + temp2) 0, b := s.a, c := s.b, d := s.c, e := ushr (s.d + temp1) 0
    f := s.e, g := s.f, h := s.g }

/-- The words of one block, in the array that the last one left. -/
def blockWords (message : List Int) (w : List Int) (chunk : Nat) : List Int :=
  (List.range' 16 48).foldl extendWord ((List.range 16).foldl (loadWord message chunk) w)

def processChunk (message : List Int) (state : List Int × List Int) (chunk : Nat) :
    List Int × List Int :=
  let hash := state.1
  let w := blockWords message state.2 chunk
  let s := (List.range 64).foldl (round w)
    { a := entry hash 0, b := entry hash 1, c := entry hash 2, d := entry hash 3
      e := entry hash 4, f := entry hash 5, g := entry hash 6, h := entry hash 7 }
  ([ushr (entry hash 0 + s.a) 0, ushr (entry hash 1 + s.b) 0, ushr (entry hash 2 + s.c) 0,
    ushr (entry hash 3 + s.d) 0, ushr (entry hash 4 + s.e) 0, ushr (entry hash 5 + s.f) 0,
    ushr (entry hash 6 + s.g) 0, ushr (entry hash 7 + s.h) 0], w)

/-- The values of `chunk`: every 64 below the length. -/
def chunks (length : Nat) : List Nat := (List.range ((length + 63) / 64)).map (64 * ·)

/-- `sha256Bytes`. -/
def sha256Bytes (input : List Int) : List Int :=
  let message := padded input
  let state := (chunks message.length).foldl (processChunk message)
    (initialHash, List.replicate 64 0)
  state.1.flatMap wordBytes

end Asimposium.Sha256
