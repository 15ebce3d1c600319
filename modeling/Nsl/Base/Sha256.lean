import Mathlib.Data.List.Basic
/-!
# Sha256 — the hash of FIPS 180-4

Words are numbers below `2 ^ 32`. The digest is eight of them in hexadecimal, so it has 64 lower-case digits whatever was
hashed.
-/
namespace Sha256

def word (n : Nat) : Nat := n % 4294967296

def rotr (k x : Nat) : Nat := (x >>> k) ||| word (x <<< (32 - k))

def not32 (x : Nat) : Nat := 4294967295 - x

/-- The round constants. -/
def k : List Nat :=
  [0x428a2f98, 0x71374491, 0xb5c0fbcf, 0xe9b5dba5, 0x3956c25b, 0x59f111f1, 0x923f82a4, 0xab1c5ed5,
   0xd807aa98, 0x12835b01, 0x243185be, 0x550c7dc3, 0x72be5d74, 0x80deb1fe, 0x9bdc06a7, 0xc19bf174,
   0xe49b69c1, 0xefbe4786, 0x0fc19dc6, 0x240ca1cc, 0x2de92c6f, 0x4a7484aa, 0x5cb0a9dc, 0x76f988da,
   0x983e5152, 0xa831c66d, 0xb00327c8, 0xbf597fc7, 0xc6e00bf3, 0xd5a79147, 0x06ca6351, 0x14292967,
   0x27b70a85, 0x2e1b2138, 0x4d2c6dfc, 0x53380d13, 0x650a7354, 0x766a0abb, 0x81c2c92e, 0x92722c85,
   0xa2bfe8a1, 0xa81a664b, 0xc24b8b70, 0xc76c51a3, 0xd192e819, 0xd6990624, 0xf40e3585, 0x106aa070,
   0x19a4c116, 0x1e376c08, 0x2748774c, 0x34b0bcb5, 0x391c0cb3, 0x4ed8aa4a, 0x5b9cca4f, 0x682e6ff3,
   0x748f82ee, 0x78a5636f, 0x84c87814, 0x8cc70208, 0x90befffa, 0xa4506ceb, 0xbef9a3f7, 0xc67178f2]

/-- The eight working words. -/
structure Words where
  (a b c d e f g h : Nat)

def Words.start : Words :=
  ⟨0x6a09e667, 0xbb67ae85, 0x3c6ef372, 0xa54ff53a, 0x510e527f, 0x9b05688c, 0x1f83d9ab, 0x5be0cd19⟩

/-- One round with its constant and its word of the schedule. -/
def Words.round (s : Words) (kw : Nat × Nat) : Words :=
  let s₁ := rotr 6 s.e ^^^ rotr 11 s.e ^^^ rotr 25 s.e
  let ch := (s.e &&& s.f) ^^^ (not32 s.e &&& s.g)
  let t₁ := s.h + s₁ + ch + kw.1 + kw.2
  let s₀ := rotr 2 s.a ^^^ rotr 13 s.a ^^^ rotr 22 s.a
  let maj := (s.a &&& s.b) ^^^ (s.a &&& s.c) ^^^ (s.b &&& s.c)
  ⟨word (t₁ + s₀ + maj), s.a, s.b, s.c, word (s.d + t₁), s.e, s.f, s.g⟩

/-- The schedule of a block, last word first: each new word from those 2, 7, 15 and 16 before it. -/
def extend : Nat → List Nat → List Nat
  | 0, ws     => ws
  | n + 1, ws =>
    let w₁₅ := ws.getD 14 0
    let w₂  := ws.getD 1 0
    let σ₀  := rotr 7 w₁₅ ^^^ rotr 18 w₁₅ ^^^ (w₁₅ >>> 3)
    let σ₁  := rotr 17 w₂ ^^^ rotr 19 w₂ ^^^ (w₂ >>> 10)
    extend n (word (ws.getD 15 0 + σ₀ + ws.getD 6 0 + σ₁) :: ws)

def Words.add (s t : Words) : Words :=
  ⟨word (s.a + t.a), word (s.b + t.b), word (s.c + t.c), word (s.d + t.d), word (s.e + t.e), word (s.f + t.f),
    word (s.g + t.g), word (s.h + t.h)⟩

/-- One block of 16 words. -/
def Words.block (s : Words) (ws : List Nat) : Words :=
  s.add ((k.zip (extend 48 ws.reverse).reverse).foldl Words.round s)

/-- The message with its end mark, its zeros and its length in bits. -/
def pad (bytes : List Nat) : List Nat :=
  let n := bytes.length
  bytes ++ 0x80 :: List.replicate ((119 - n % 64) % 64) 0 ++
    (List.range 8).map (fun i => ((8 * n) >>> (56 - 8 * i)) % 256)

def toWords : List Nat → List Nat
  | a :: b :: c :: d :: bytes => (((a * 256 + b) * 256 + c) * 256 + d) :: toWords bytes
  | _                         => []

/-- All blocks, `n` of them at most. -/
def blocks : Nat → Words → List Nat → Words
  | 0, s, _      => s
  | n + 1, s, ws => if ws.isEmpty then s else blocks n (s.block (ws.take 16)) (ws.drop 16)

def hexDigit (n : Nat) : Char := "0123456789abcdef".toList.getD n '0'

/-- A word in eight hexadecimal digits. -/
def hex (w : Nat) : List Char := (List.range 8).map (fun i => hexDigit ((w >>> (28 - 4 * i)) % 16))

def Words.toList (s : Words) : List Nat := [s.a, s.b, s.c, s.d, s.e, s.f, s.g, s.h]

def hashBytes (bytes : List Nat) : Words :=
  let ws := toWords (pad bytes)
  blocks ws.length Words.start ws

/-- `sha256(text.encode("utf-8")).hexdigest()` -/
def hexdigest (text : String) : String :=
  String.ofList ((hashBytes (text.toUTF8.toList.map (·.toNat))).toList.flatMap hex)

theorem hex_length (w : Nat) : (hex w).length = 8 := by simp [hex]

theorem hexdigest_length (text : String) : (hexdigest text).toList.length = 64 := by
  simp [hexdigest, Words.toList, hex_length]

theorem hexDigit_mem (n : Nat) : hexDigit n ∈ "0123456789abcdef".toList := by
  unfold hexDigit
  rw [List.getD_eq_getElem?_getD]
  cases h : "0123456789abcdef".toList[n]? with
  | none   => decide
  | some c => exact List.mem_of_getElem? h

theorem hexdigest_digits (text : String) : ∀ c ∈ (hexdigest text).toList, c ∈ "0123456789abcdef".toList := by
  intro c hc
  simp only [hexdigest, String.toList_ofList, List.mem_flatMap] at hc
  obtain ⟨w, -, hc⟩ := hc
  obtain ⟨i, -, rfl⟩ := List.mem_map.1 hc
  exact hexDigit_mem _

end Sha256
