import NatProxy.Lib.BigEndian

/-!
# DNS messages on the wire

The messages of RFC 1035 and their encoding: a header with the counts of four sections, questions,
and resource records. A name is a list of labels that ends in the root or in a compression pointer.
The types carry the bounds that the encoding needs, so each value is a message that can be written.
The targets of pointers are free.

A parser reads a message by offsets. What it finds at an offset is stated as what `drop` leaves
there, and `drop_add` moves on behind a part that was read; `getNat_uint16` and `getNat_uint32` read
a number.
-/

namespace NatProxy.Lib.DNSWire

open List

/-- A label has between 1 and 63 bytes. -/
structure Label where
  text : Bytes
  nonempty : 0 < text.length
  short : text.length < 64

/-- A name ends in the root label or in a pointer to an offset of 14 bits. -/
inductive NameEnd where
  | root
  | pointer (target : Fin 16384)
  deriving DecidableEq, Repr

structure Name where
  labels : List Label
  last : NameEnd

structure Question where
  name : Name
  qtype : UInt16
  qclass : UInt16

/-- A resource record; its data may be empty, and has fewer than 65536 bytes. -/
structure Record where
  name : Name
  rtype : UInt16
  rclass : UInt16
  ttl : UInt32
  rdata : Bytes
  short : rdata.length < 65536

structure Message where
  id : UInt16
  flags : UInt16
  questions : List Question
  answers : List Record
  authority : List Record
  additional : List Record
  qdcount : questions.length < 65536
  ancount : answers.length < 65536
  nscount : authority.length < 65536
  arcount : additional.length < 65536

def uint16 (v : Nat) : Bytes := putNat 2 v

def uint32 (v : Nat) : Bytes := putNat 4 v

def Label.encode (l : Label) : Bytes := UInt8.ofNat l.text.length :: l.text

def NameEnd.encode : NameEnd → Bytes
  | .root => [0]
  | .pointer target => [UInt8.ofNat (192 + target.val / 256), UInt8.ofNat target.val]

def Name.encode (n : Name) : Bytes := n.labels.flatMap Label.encode ++ n.last.encode

def Question.encode (q : Question) : Bytes :=
  q.name.encode ++ (uint16 q.qtype.toNat ++ uint16 q.qclass.toNat)

/-- The ten bytes of a record between its name and its data. -/
def Record.fixed (r : Record) : Bytes :=
  uint16 r.rtype.toNat ++ uint16 r.rclass.toNat ++ uint32 r.ttl.toNat ++ uint16 r.rdata.length

def Record.encode (r : Record) : Bytes := r.name.encode ++ (r.fixed ++ r.rdata)

def Message.header (m : Message) : Bytes :=
  uint16 m.id.toNat ++ uint16 m.flags.toNat ++ uint16 m.questions.length ++
    uint16 m.answers.length ++ uint16 m.authority.length ++ uint16 m.additional.length

def Message.encode (m : Message) : Bytes :=
  m.header ++ (m.questions.flatMap Question.encode ++
    ((m.answers ++ m.authority).flatMap Record.encode ++ m.additional.flatMap Record.encode))

/-- The response code is in the last four bits of the flags. -/
def Message.rcode (m : Message) : Nat := m.flags.toNat % 16

/-! ## Reading at an offset -/

section Reading

variable {data part rest : Bytes} {offset : Nat}

theorem drop_add (h : data.drop offset = part ++ rest) :
    data.drop (offset + part.length) = rest := by
  rw [← drop_drop, h, drop_left]

theorem take_drop (h : data.drop offset = part ++ rest) :
    (data.drop offset).take part.length = part := by
  rw [h, take_left]

theorem length_of_drop (h : data.drop offset = part ++ rest) (hpart : part ≠ []) :
    offset + part.length ≤ data.length := by
  have hlen := congrArg length h
  have hpos := length_pos_iff.mpr hpart
  rw [length_drop, length_append] at hlen
  omega

theorem getElem?_of_drop {b : UInt8} (h : data.drop offset = b :: rest) :
    data[offset]? = some b := by
  have hhead : (data.drop offset)[0]? = some b := by
    rw [h]
    rfl
  rw [getElem?_drop] at hhead
  exact hhead

end Reading

theorem getNat_uint16 {v : Nat} (h : v < 65536) : getNat (uint16 v) = v := by
  apply getNat_putNat
  show v / 256 / 256 = 0
  omega

theorem getNat_uint32 (v : UInt32) : getNat (uint32 v.toNat) = v.toNat := by
  have hv := v.toNat_lt
  apply getNat_putNat
  show v.toNat / 256 / 256 / 256 / 256 = 0
  omega

@[simp] theorem length_uint16 (v : Nat) : (uint16 v).length = 2 := length_putNat 2 v

@[simp] theorem length_uint32 (v : Nat) : (uint32 v).length = 4 := length_putNat 4 v

theorem length_fixed (r : Record) : r.fixed.length = 10 := by
  simp only [Record.fixed, length_append, length_uint16, length_uint32]

theorem length_header (m : Message) : m.header.length = 12 := by
  simp only [Message.header, length_append, length_uint16]

theorem NameEnd.encode_ne_nil (e : NameEnd) : e.encode ≠ [] := by
  cases e with
  | root | pointer target => exact cons_ne_nil _ _

theorem Name.encode_ne_nil (n : Name) : n.encode ≠ [] := by
  intro h
  exact n.last.encode_ne_nil (append_eq_nil_iff.mp h).2

theorem Name.length_labels_lt (n : Name) : n.labels.length < n.encode.length := by
  have hlabels : ∀ labels : List Label,
      labels.length ≤ (labels.flatMap Label.encode).length := by
    intro labels
    induction labels with
    | nil => exact Nat.le_refl _
    | cons l labels ih =>
      rw [flatMap_cons, length_append, length_cons, Label.encode,
        length_cons]
      omega
  have hlast := length_pos_iff.mpr n.last.encode_ne_nil
  rw [Name.encode, length_append]
  exact Nat.lt_of_le_of_lt (hlabels n.labels) (Nat.lt_add_of_pos_right hlast)

end NatProxy.Lib.DNSWire
