import FfmpegPlayer.PlainFile
import Mathlib.Data.BitVec

namespace FfmpegPlayer.Numbers

open AvioBuf BufferedFile PlainFile
open Transition (mapped both Follows)

section Readers

variable {σ τ : Type} (next : σ → UInt8 × σ)

def r8 : σ → BitVec 32 × σ := mapped next fun b => b.toBitVec.setWidth 32

def avioRl16 : σ → BitVec 32 × σ := both (r8 next) (r8 next) fun a b => a ||| b <<< 8

def avioRl24 : σ → BitVec 32 × σ := both (avioRl16 next) (r8 next) fun a b => a ||| b <<< 16

def avioRl32 : σ → BitVec 32 × σ := both (avioRl16 next) (avioRl16 next) fun a b => a ||| b <<< 16

def avioRl64 : σ → BitVec 64 × σ :=
  both (avioRl32 next) (avioRl32 next) fun a b => a.setWidth 64 ||| b.setWidth 64 <<< 32

def avioRb16 : σ → BitVec 32 × σ := both (r8 next) (r8 next) fun a b => a <<< 8 ||| b

def avioRb24 : σ → BitVec 32 × σ := both (avioRb16 next) (r8 next) fun a b => a <<< 8 ||| b

def avioRb32 : σ → BitVec 32 × σ := both (avioRb16 next) (avioRb16 next) fun a b => a <<< 16 ||| b

def avioRb64 : σ → BitVec 64 × σ :=
  both (avioRb32 next) (avioRb32 next) fun a b => a.setWidth 64 <<< 32 ||| b.setWidth 64

end Readers

def w8 (v : BitVec 32) : List UInt8 := [⟨v.setWidth 8⟩]

def avioWl16 (v : BitVec 32) : List UInt8 := w8 v ++ w8 (v.sshiftRight 8)

def avioWl24 (v : BitVec 32) : List UInt8 := avioWl16 (v &&& 0xffff) ++ w8 (v.sshiftRight 16)

def avioWl32 (v : BitVec 32) : List UInt8 := w8 v ++ w8 (v >>> 8) ++ w8 (v >>> 16) ++ w8 (v >>> 24)

def avioWl64 (v : BitVec 64) : List UInt8 :=
  avioWl32 ((v &&& 0xffffffff).setWidth 32) ++ avioWl32 ((v >>> 32).setWidth 32)

def avioWb16 (v : BitVec 32) : List UInt8 := w8 (v.sshiftRight 8) ++ w8 v

def avioWb24 (v : BitVec 32) : List UInt8 := avioWb16 (v.sshiftRight 8) ++ w8 v

def avioWb32 (v : BitVec 32) : List UInt8 := w8 (v >>> 24) ++ w8 (v >>> 16) ++ w8 (v >>> 8) ++ w8 v

def avioWb64 (v : BitVec 64) : List UInt8 :=
  avioWb32 ((v >>> 32).setWidth 32) ++ avioWb32 ((v &&& 0xffffffff).setWidth 32)

def pop : List UInt8 → UInt8 × List UInt8
  | [] => (0, [])
  | b :: bs => (b, bs)

theorem and_ffff (v : BitVec 32) : v &&& 0xffff = (v.setWidth 16).setWidth 32 := by
  apply BitVec.eq_of_toNat_eq
  rw [BitVec.toNat_and, BitVec.toNat_setWidth, BitVec.toNat_setWidth]
  have hmask := Nat.and_two_pow_sub_one_eq_mod v.toNat 16
  have hlt := Nat.mod_lt v.toNat (Nat.two_pow_pos 16)
  rw [Nat.mod_eq_of_lt (Nat.lt_trans hlt (by decide))]
  exact hmask

theorem and_ffffffff (v : BitVec 64) : (v &&& 0xffffffff).setWidth 32 = v.setWidth 32 := by
  apply BitVec.eq_of_toNat_eq
  rw [BitVec.toNat_setWidth, BitVec.toNat_setWidth, BitVec.toNat_and]
  have hmask := Nat.and_two_pow_sub_one_eq_mod v.toNat 32
  exact (congrArg (· % 2 ^ 32) hmask).trans (Nat.mod_mod _ _)

theorem r8_w8 (v : BitVec 32) (rest : List UInt8) : r8 pop (w8 v ++ rest) = ((v.setWidth 8).setWidth 32, rest) := rfl

theorem rl16_wl16 (v : BitVec 32) (rest : List UInt8) :
    avioRl16 pop (avioWl16 v ++ rest) = ((v.setWidth 16).setWidth 32, rest) := by
  simp only [avioRl16, avioWl16, both, List.append_assoc, r8_w8]
  refine Prod.ext ?_ rfl
  ext i hi
  simp [BitVec.getLsbD_sshiftRight]
  grind

theorem rb16_wb16 (v : BitVec 32) (rest : List UInt8) :
    avioRb16 pop (avioWb16 v ++ rest) = ((v.setWidth 16).setWidth 32, rest) := by
  simp only [avioRb16, avioWb16, both, List.append_assoc, r8_w8]
  refine Prod.ext ?_ rfl
  ext i hi
  simp [BitVec.getLsbD_sshiftRight]
  grind

theorem rl24_wl24 (v : BitVec 32) (rest : List UInt8) :
    avioRl24 pop (avioWl24 v ++ rest) = ((v.setWidth 24).setWidth 32, rest) := by
  simp only [avioRl24, avioWl24, both, List.append_assoc, and_ffff, rl16_wl16, r8_w8]
  refine Prod.ext ?_ rfl
  ext i hi
  simp [BitVec.getLsbD_sshiftRight]
  grind

theorem rb24_wb24 (v : BitVec 32) (rest : List UInt8) :
    avioRb24 pop (avioWb24 v ++ rest) = ((v.setWidth 24).setWidth 32, rest) := by
  simp only [avioRb24, avioWb24, both, List.append_assoc, rb16_wb16, r8_w8]
  refine Prod.ext ?_ rfl
  ext i hi
  simp [BitVec.getLsbD_sshiftRight]
  grind

theorem rl32_wl32 (v : BitVec 32) (rest : List UInt8) : avioRl32 pop (avioWl32 v ++ rest) = (v, rest) := by
  simp only [avioRl32, avioRl16, avioWl32, both, List.append_assoc, r8_w8]
  refine Prod.ext ?_ rfl
  ext i hi
  simp
  grind

theorem rb32_wb32 (v : BitVec 32) (rest : List UInt8) : avioRb32 pop (avioWb32 v ++ rest) = (v, rest) := by
  simp only [avioRb32, avioRb16, avioWb32, both, List.append_assoc, r8_w8]
  refine Prod.ext ?_ rfl
  ext i hi
  simp
  grind

theorem halves (v : BitVec 64) : (v.setWidth 32).setWidth 64 ||| ((v >>> 32).setWidth 32).setWidth 64 <<< 32 = v := by
  ext i hi
  simp
  grind

theorem rl64_wl64 (v : BitVec 64) (rest : List UInt8) : avioRl64 pop (avioWl64 v ++ rest) = (v, rest) := by
  simp only [avioRl64, avioWl64, both, List.append_assoc, rl32_wl32, and_ffffffff]
  exact Prod.ext (halves v) rfl

theorem rb64_wb64 (v : BitVec 64) (rest : List UInt8) : avioRb64 pop (avioWb64 v ++ rest) = (v, rest) := by
  simp only [avioRb64, avioWb64, both, List.append_assoc, rb32_wb32, and_ffffffff]
  refine Prod.ext ?_ rfl
  rw [BitVec.or_comm]
  exact halves v

/-- The kinds of numbers: `l` has the lowest byte first, `b` the highest. -/
inductive Number
  | l16
  | l24
  | l32
  | l64
  | b16
  | b24
  | b32
  | b64
deriving DecidableEq, Repr

def Number.bits : Number → Nat
  | .l16 | .b16 => 16
  | .l24 | .b24 => 24
  | .l32 | .b32 => 32
  | .l64 | .b64 => 64

def Number.read {σ : Type} (next : σ → UInt8 × σ) : Number → σ → BitVec 64 × σ
  | .l16 => mapped (avioRl16 next) fun v => v.setWidth 64
  | .l24 => mapped (avioRl24 next) fun v => v.setWidth 64
  | .l32 => mapped (avioRl32 next) fun v => v.setWidth 64
  | .l64 => avioRl64 next
  | .b16 => mapped (avioRb16 next) fun v => v.setWidth 64
  | .b24 => mapped (avioRb24 next) fun v => v.setWidth 64
  | .b32 => mapped (avioRb32 next) fun v => v.setWidth 64
  | .b64 => avioRb64 next

def Number.write (v : BitVec 64) : Number → List UInt8
  | .l16 => avioWl16 (v.setWidth 32)
  | .l24 => avioWl24 (v.setWidth 32)
  | .l32 => avioWl32 (v.setWidth 32)
  | .l64 => avioWl64 v
  | .b16 => avioWb16 (v.setWidth 32)
  | .b24 => avioWb24 (v.setWidth 32)
  | .b32 => avioWb32 (v.setWidth 32)
  | .b64 => avioWb64 v

theorem setWidth_of_lt {v : BitVec 64} {w : Nat} (h : v.toNat < 2 ^ w) (hw : w ≤ 32) :
    (((v.setWidth 32).setWidth w).setWidth 32).setWidth 64 = v := by
  have hle : 2 ^ w ≤ 2 ^ 32 := Nat.pow_le_pow_right (by decide) hw
  have hlt := v.isLt
  apply BitVec.eq_of_toNat_eq
  simp only [BitVec.toNat_setWidth]
  rw [Nat.mod_eq_of_lt (Nat.lt_of_lt_of_le h hle), Nat.mod_eq_of_lt h, Nat.mod_eq_of_lt (Nat.lt_of_lt_of_le h hle),
    Nat.mod_eq_of_lt hlt]

/-- A number that fits is read back. -/
theorem Number.read_write (k : Number) {v : BitVec 64} (h : v.toNat < 2 ^ k.bits) (rest : List UInt8) :
    k.read pop (k.write v ++ rest) = (v, rest) := by
  cases k with
  | l16 =>
      rw [read, write, mapped, rl16_wl16]
      exact Prod.ext (setWidth_of_lt h (by decide)) rfl
  | l24 =>
      rw [read, write, mapped, rl24_wl24]
      exact Prod.ext (setWidth_of_lt h (by decide)) rfl
  | l32 =>
      rw [read, write, mapped, rl32_wl32]
      exact Prod.ext (setWidth_of_lt h (by decide)) rfl
  | l64 => exact rl64_wl64 v rest
  | b16 =>
      rw [read, write, mapped, rb16_wb16]
      exact Prod.ext (setWidth_of_lt h (by decide)) rfl
  | b24 =>
      rw [read, write, mapped, rb24_wb24]
      exact Prod.ext (setWidth_of_lt h (by decide)) rfl
  | b32 =>
      rw [read, write, mapped, rb32_wb32]
      exact Prod.ext (setWidth_of_lt h (by decide)) rfl
  | b64 => exact rb64_wb64 v rest

def written (fields : List (Number × BitVec 64)) : List UInt8 := fields.flatMap fun f => f.1.write f.2

def readAll {σ : Type} (next : σ → UInt8 × σ) : List Number → σ → List (BitVec 64) × σ
  | [] => fun s => ([], s)
  | k :: ks => both (k.read next) (readAll next ks) List.cons

theorem readAll_written {fields : List (Number × BitVec 64)} (h : ∀ f ∈ fields, f.2.toNat < 2 ^ f.1.bits)
    (rest : List UInt8) :
    readAll pop (fields.map Prod.fst) (written fields ++ rest) = (fields.map Prod.snd, rest) := by
  induction fields with
  | nil => rfl
  | cons f fields ih =>
      have hf := h f (List.mem_cons_self ..)
      have hrest := ih (fun g hg => h g (List.mem_cons_of_mem f hg))
      simp only [List.map_cons, readAll, both, written, List.flatMap_cons, List.append_assoc]
      rw [Number.read_write f.1 hf]
      rw [written] at hrest
      rw [hrest]

section Follows

variable {σ τ : Type} {v : σ → τ} {I : σ → Prop} {next : σ → UInt8 × σ} {next' : τ → UInt8 × τ}

theorem Number.read_follows (h : Follows v I next next') (k : Number) : Follows v I (k.read next) (k.read next') := by
  have h8 : Follows v I (r8 next) (r8 next') := h.mapped _
  have hl16 : Follows v I (avioRl16 next) (avioRl16 next') := h8.both h8 _
  have hb16 : Follows v I (avioRb16 next) (avioRb16 next') := h8.both h8 _
  have hl24 : Follows v I (avioRl24 next) (avioRl24 next') := hl16.both h8 _
  have hb24 : Follows v I (avioRb24 next) (avioRb24 next') := hb16.both h8 _
  have hl32 : Follows v I (avioRl32 next) (avioRl32 next') := hl16.both hl16 _
  have hb32 : Follows v I (avioRb32 next) (avioRb32 next') := hb16.both hb16 _
  have hl64 : Follows v I (avioRl64 next) (avioRl64 next') := hl32.both hl32 _
  have hb64 : Follows v I (avioRb64 next) (avioRb64 next') := hb32.both hb32 _
  cases k with
  | l16 => simpa only [read] using hl16.mapped fun v => v.setWidth 64
  | l24 => simpa only [read] using hl24.mapped fun v => v.setWidth 64
  | l32 => simpa only [read] using hl32.mapped fun v => v.setWidth 64
  | l64 => simpa only [read] using hl64
  | b16 => simpa only [read] using hb16.mapped fun v => v.setWidth 64
  | b24 => simpa only [read] using hb24.mapped fun v => v.setWidth 64
  | b32 => simpa only [read] using hb32.mapped fun v => v.setWidth 64
  | b64 => simpa only [read] using hb64

theorem readAll_follows (h : Follows v I next next') (ks : List Number) :
    Follows v I (readAll next ks) (readAll next' ks) := by
  induction ks with
  | nil => exact fun s hs => ⟨rfl, rfl, hs⟩
  | cons k ks ih => exact (Number.read_follows h k).both ih _

end Follows

variable {U : Protocol} {file : List UInt8} {place : U.State → Nat} {c : AVIOContext U}

def ahead (file : List UInt8) (c : AVIOContext U) : List UInt8 := file.drop (cursor c)

theorem avioR8_follows (hh : Honest U file place) : Follows (ahead file) (Settled file place) avioR8 pop := by
  intro c h
  have hsettled := h.avioR8 hh
  rcases (h.holds.avioR8 hh.serves).2 with ⟨hbyte, hcur, -⟩ | ⟨hzero, hcur, heof, havail⟩
  · have hahead : ahead file c = (avioR8 c).1 :: file.drop (cursor c + 1) := by
      obtain ⟨hlt, hget⟩ := List.getElem?_eq_some_iff.mp hbyte
      rw [ahead, List.drop_eq_getElem_cons hlt, hget]
    rw [hahead]
    exact ⟨rfl, by rw [ahead, hcur]; rfl, hsettled⟩
  · have hend : file.length ≤ cursor c := by
      rw [← hcur, cursor_of_avail havail]
      exact (hsettled.atEnd heof).2
    have hahead : ahead file c = [] := List.drop_eq_nil_of_le hend
    rw [hahead]
    exact ⟨hzero, by rw [ahead, hcur]; exact hahead, hsettled⟩

/-- A record written with the functions avio_w* is read back with the functions avio_r*,
wherever in the file it lies and however the file is delivered. -/
theorem read_back (hh : Honest U file place) (h : Settled file place c) {fields : List (Number × BitVec 64)}
    (hfit : ∀ f ∈ fields, f.2.toNat < 2 ^ f.1.bits) {rest : List UInt8} (hfile : ahead file c = written fields ++ rest) :
    (readAll avioR8 (fields.map Prod.fst) c).1 = fields.map Prod.snd ∧
      ahead file (readAll avioR8 (fields.map Prod.fst) c).2 = rest ∧
      Settled file place (readAll avioR8 (fields.map Prod.fst) c).2 := by
  obtain ⟨hval, hview, hsettled⟩ := readAll_follows (avioR8_follows hh) (fields.map Prod.fst) c h
  rw [hfile, readAll_written hfit] at hval hview
  exact ⟨hval, hview, hsettled⟩

def atom : List (Number × BitVec 64) := [(.b32, 12), (.b32, 0x6d766864), (.l16, 258), (.b16, 3)]

theorem read_back_sample :
    (readAll avioR8 [.b32, .b32, .l16, .b16]
      (ffioInitContext (U := fileProtocol [0, 0, 0, 12, 0x6d, 0x76, 0x68, 0x64, 2, 1, 0, 3, 9] 3) (0 : Nat) 4
        (by decide))).1 = [12, 0x6d766864, 258, 3] := by
  have hfile : written atom ++ [9] = [0, 0, 0, 12, 0x6d, 0x76, 0x68, 0x64, 2, 1, 0, 3, 9] := by decide
  have hsettled : Settled [0, 0, 0, 12, 0x6d, 0x76, 0x68, 0x64, 2, 1, 0, 3, 9] id
      (ffioInitContext (U := fileProtocol [0, 0, 0, 12, 0x6d, 0x76, 0x68, 0x64, 2, 1, 0, 3, 9] 3) (0 : Nat) 4
        (by decide)) := settled_init rfl (by decide)
  have hfit : ∀ f ∈ atom, f.2.toNat < 2 ^ f.1.bits := by decide
  exact (read_back (fileProtocol_honest [0, 0, 0, 12, 0x6d, 0x76, 0x68, 0x64, 2, 1, 0, 3, 9] (by decide)) hsettled hfit
    hfile.symm).1

end FfmpegPlayer.Numbers
