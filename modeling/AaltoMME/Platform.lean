import AaltoMME.Base.Run
import AaltoMME.Base.Memory

/-!
# What the program runs on

The functions the program takes from libraries outside its own source are parameters, collected
in `Prims`: the AES-128 block cipher and HMAC-SHA256 of OpenSSL and GLib's `g_int64_hash`.  A
computation of the program either returns or ends in a `Fault`.  The faults are the deliberate
ones (`g_error` and `g_assert`, which abort the process) and the undefined behaviours of C that
the modelled code can run into.
-/

namespace AaltoMME

open Base

/-- The library functions that the program calls and that are not part of its source. -/
structure Prims where
  /-- AES-128 encryption of one block of 16 octets, given the key. -/
  aes128 : List UInt8 → List UInt8 → List UInt8
  /-- HMAC-SHA256 of a message, given the key. -/
  hmacSha256 : List UInt8 → List UInt8 → List UInt8
  /-- GLib's hash of a 64 bit integer. -/
  gInt64Hash : UInt64 → UInt32

/-- A block cipher of OpenSSL: the size of its blocks in octets and the encryption of one block, given the key. -/
structure BlockCipher where
  blockSize : Nat
  encrypt : List UInt8 → List UInt8 → List UInt8

/-- AES-128 as a block cipher. -/
def Prims.aes (P : Prims) : BlockCipher := ⟨16, P.aes128⟩

@[simp] theorem Prims.blockSize_aes (P : Prims) : P.aes.blockSize = 16 := rfl

@[simp] theorem Prims.encrypt_aes (P : Prims) : P.aes.encrypt = P.aes128 := rfl

/-- The number that a string of octets denotes, most significant octet first. -/
def natOfOctets (l : List UInt8) : Nat := l.foldl (fun n b => n * 256 + b.toNat) 0

/-- The `len` least significant octets of a number, most significant octet first. -/
def octetsOfNat (len n : Nat) : List UInt8 :=
  (List.range len).map fun i => UInt8.ofNat (n / 256 ^ (len - 1 - i))

/-- Library functions given by tables of known answers (key, input, output), zero elsewhere.  They
serve to evaluate the model on concrete inputs. -/
def Prims.ofAnswers (aes hmac : List (Nat × Nat × Nat)) (hash : UInt64 → UInt32) : Prims where
  aes128 k b := octetsOfNat 16
    (((aes.find? fun a => a.1 = natOfOctets k ∧ a.2.1 = natOfOctets b).map (·.2.2)).getD 0)
  hmacSha256 k m := octetsOfNat 32
    (((hmac.find? fun a => a.1 = natOfOctets k ∧ a.2.1 = natOfOctets m).map (·.2.2)).getD 0)
  gInt64Hash := hash

/-- The block cipher returns blocks. -/
def Prims.BlockSized (P : Prims) : Prop := ∀ k b, (P.aes128 k b).length = 16

theorem Prims.ofAnswers_blockSized (aes hmac : List (Nat × Nat × Nat)) (hash : UInt64 → UInt32) :
    (Prims.ofAnswers aes hmac hash).BlockSized := fun k b => by
  simp [ofAnswers, octetsOfNat]

/-- How a computation can fail to return. -/
inductive Fault
  /-- `g_error`, with its message: logs and aborts. -/
  | gError (text : String)
  /-- A `g_assert` whose condition is false: aborts. -/
  | gAssert (cond : String)
  /-- A NULL pointer is dereferenced. -/
  | nullDeref
  /-- A NULL function pointer is called. -/
  | nullCall
  /-- Memory is used after it was freed. -/
  | useAfterFree
  /-- A write past the end of a fixed size buffer. -/
  | overflow
  /-- A read that runs past the end of an object until it leaves mapped memory. -/
  | overread
  /-- A local variable is read before it was written. -/
  | uninitialised
  deriving DecidableEq, Repr

/-- The faults raised on purpose by `g_error` or `g_assert`. -/
@[simp] def Fault.IsAbort : Fault → Prop
  | .gError _ | .gAssert _ => True
  | _ => False

instance : DecidablePred Fault.IsAbort := fun f => by
  cases f <;> unfold Fault.IsAbort <;> infer_instance

/-- The outcome of a computation of the program. -/
abbrev Outcome (α : Type) : Type := Except Fault α

end AaltoMME
