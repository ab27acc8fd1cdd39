import Dataflow.Json.Decode
import Dataflow.Proofs.Json.Reading

/-!
# Encoders and their decoders

A decoder inverts an encoder when it takes apart every value that the encoder puts together, and
those values are read back from a text (`Inverts`).  It then takes apart both texts of the value
(`Inverts.decodeText_compact`, `Inverts.decodeText_pretty`).
-/

namespace Dataflow

section Plain

namespace Json

@[simp] theorem isPlain_text (s : String) : (text s).isPlain = true := rfl

@[simp] theorem isPlain_nat (n : Nat) : (nat n).isPlain = true := rfl

@[simp] theorem isPlain_bool (b : Bool) : (bool b).isPlain = true := rfl

@[simp] theorem isPlain_orNull {α : Type} {encode : α → Json} (h : ∀ a, (encode a).isPlain = true)
    (o : Option α) : (orNull encode o).isPlain = true := by
  cases o with
  | none => rfl
  | some a => exact h a

@[simp] theorem isPlain_array (l : List Json) : (array l).isPlain = l.all isPlain := by
  rw [array, isPlain]
  induction l with
  | nil => rfl
  | cons j l ih => rw [Items.ofList, Items.isPlain, ih, List.all_cons]

@[simp] theorem isPlain_object (l : List (String × Json)) :
    (object l).isPlain = l.all fun m => m.2.isPlain := by
  rw [object, isPlain]
  induction l with
  | nil => rfl
  | cons m l ih =>
      rw [Fields.ofList, Fields.isPlain, ih, List.all_cons, Option.isSome_some, Bool.true_and]

end Json

end Plain

section Steps

variable {α : Type}

@[simp] theorem ok_bind {ε β : Type} (a : α) (f : α → Except ε β) :
    (Except.ok a >>= f) = f a := rfl

end Steps

section Inverting

variable {α : Type} {decode : Json → Decoded α} {encode : α → Json}

/-- A decoder takes apart what an encoder puts together, and a text keeps it. -/
structure Inverts (decode : Json → Decoded α) (encode : α → Json) : Prop where
  isPlain : ∀ a, (encode a).isPlain = true
  decode_encode : ∀ a, decode (encode a) = .ok a

/-- A text that holds a value is decoded as the value is. -/
theorem decodeText_of_read {text : String} {j : Json} {a : α} (hread : Json.read text = (j, false))
    (hdecode : decode j = .ok a) : decodeText decode text = .ok a := by
  simp only [decodeText, hread, hdecode, ok_bind]
  rfl

namespace Inverts

theorem decodeText_compact (h : Inverts decode encode) (a : α) :
    decodeText decode (encode a).compact = .ok a :=
  decodeText_of_read (Json.read_compact (h.isPlain a)) (h.decode_encode a)

theorem decodeText_pretty (h : Inverts decode encode) (a : α) :
    decodeText decode (encode a).pretty = .ok a :=
  decodeText_of_read (Json.read_pretty (h.isPlain a)) (h.decode_encode a)

end Inverts

end Inverting
end Dataflow
