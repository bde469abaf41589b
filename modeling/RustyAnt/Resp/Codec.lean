import RustyAnt.Resp.Wire

/-!
# A reader of RESP2

What is relied on of `redis_protocol` and of `hiredis` can be had: a reader that takes a whole frame
off the front of a text, and nothing off a text that ends within one.
-/

namespace RustyAnt.Resp2

open Lib.Decimal Lib.PyBytes Client

/-! ## Reading -/

def readLine (bs : Bytes) : Option (Bytes × Bytes) :=
  (findCrlf bs).map fun i => (bs.take i, bs.drop (i + 2))

/-- `n` items, one behind the other. -/
def readItems (readItem : Bytes → Option (BytesFrame × Bytes)) :
    Nat → Bytes → Option (List BytesFrame × Bytes)
  | 0, bs => some ([], bs)
  | n + 1, bs => do
      let (item, bs) ← readItem bs
      let (items, bs) ← readItems readItem n bs
      return (item :: items, bs)

/-- The frame at the front of a text that has one; there are no more than `left` bytes. -/
def readFrame : (left : Nat) → Bytes → Option (BytesFrame × Bytes)
  | 0, _ => none
  | _ + 1, [] => none
  | left + 1, mark :: bs => do
      let (text, rest) ← readLine bs
      if mark = 43 then return (.simpleString text, rest)
      else if mark = 45 then return (.error (← String.fromUTF8? text.toByteArray), rest)
      else if mark = 58 then return (.integer (← parseInt text), rest)
      else do
        let n ← parseInt text
        if n < 0 then return (.null, rest)
        else if mark = 36 then
          return (.bulkString (rest.take n.toNat), rest.drop (n.toNat + 2))
        else do
          let (items, rest) ← readItems (readFrame left) n.toNat rest
          return (.array items, rest)

/-- The frame at the front of a text, and none where that ends within it. -/
def readWhole (bs : Bytes) : Option (BytesFrame × Bytes) :=
  match frameLen bs bs.length 0 with
  | .ok n => if n = 0 then none else readFrame bs.length bs
  | .error _ => none

/-! ## What has been written is read -/

variable {text rest : Bytes} {left : Nat}

theorem readLine_line (htext : (13 : UInt8) ∉ text) :
    readLine (text ++ [13, 10] ++ rest) = some (text, rest) := by
  have hdrop : (text ++ 13 :: 10 :: rest).drop (text.length + 2) = rest := by
    rw [← List.drop_drop, List.drop_left]
    rfl
  unfold readLine
  rw [List.append_assoc]
  show (findCrlf (text ++ 13 :: 10 :: rest)).map _ = _
  rw [findCrlf_line htext]
  show some ((text ++ 13 :: 10 :: rest).take text.length, (text ++ 13 :: 10 :: rest).drop _) = _
  rw [List.take_left, hdrop]

theorem readFrame_header (mark : UInt8) (htext : (13 : UInt8) ∉ text) :
    readFrame (left + 1) (header mark text ++ rest) =
      if mark = 43 then some (.simpleString text, rest)
      else if mark = 45 then
        (String.fromUTF8? text.toByteArray).bind fun s => some (.error s, rest)
      else if mark = 58 then (parseInt text).bind fun n => some (.integer n, rest)
      else (parseInt text).bind fun n =>
        if n < 0 then some (.null, rest)
        else if mark = 36 then
          some (.bulkString (rest.take n.toNat), rest.drop (n.toNat + 2))
        else (readItems (readFrame left) n.toNat rest).bind fun (items, rest) =>
          some (.array items, rest) := by
  have hline : readLine (text ++ [13, 10] ++ rest) = some (text, rest) := readLine_line htext
  show readFrame (left + 1) (mark :: (text ++ [13, 10] ++ rest)) = _
  unfold readFrame
  rw [hline]
  rfl

theorem parseInt_natBytes (n : Nat) : parseInt (natBytes n) = some (n : Int) :=
  parseInt_intBytes n

theorem readFrame_bulkString (b rest : Bytes) :
    readFrame (left + 1) ((BytesFrame.bulkString b).wire ++ rest) =
      some (.bulkString b, rest) := by
  have hdrop : (b ++ ([13, 10] ++ rest)).drop (b.length + 2) = rest := by
    rw [← List.drop_drop, List.drop_left]
    rfl
  rw [BytesFrame.wire, List.append_assoc, readFrame_header 36 (no_cr_natBytes _), if_neg (by decide),
    if_neg (by decide), if_neg (by decide), parseInt_natBytes, Option.bind_some, if_neg (by omega),
    if_pos rfl, Int.toNat_natCast, List.append_assoc, List.take_left, hdrop]

theorem readFrame_array {items : List BytesFrame}
    (hitems : readItems (readFrame left) items.length (wireAll items ++ rest) =
      some (items, rest)) :
    readFrame (left + 1) ((BytesFrame.array items).wire ++ rest) = some (.array items, rest) := by
  rw [BytesFrame.wire, List.append_assoc, readFrame_header 42 (no_cr_natBytes _), if_neg (by decide),
    if_neg (by decide), if_neg (by decide), parseInt_natBytes, Option.bind_some, if_neg (by omega),
    if_neg (by decide), Int.toNat_natCast, hitems]
  rfl

theorem length_wire_pos (f : BytesFrame) : 0 < f.wire.length := by
  cases f <;> exact Nat.succ_pos _

mutual

theorem readFrame_wire {f : BytesFrame} (h : f.Framed) {rest : Bytes} {left : Nat}
    (hleft : (f.wire ++ rest).length ≤ left) : readFrame left (f.wire ++ rest) = some (f, rest) := by
  have hpos := length_wire_pos f
  rw [List.length_append] at hleft
  obtain ⟨left, rfl⟩ : ∃ left', left = left' + 1 := ⟨left - 1, by omega⟩
  cases f with
  | simpleString b => exact readFrame_header 43 h.1
  | error s =>
      refine (readFrame_header 45 h.1).trans ?_
      rw [if_neg (by decide), if_pos rfl, Rdb.fromUTF8?_asBytes]
      rfl
  | integer n =>
      refine (readFrame_header 58 (no_cr_intBytes n)).trans ?_
      rw [if_neg (by decide), if_neg (by decide), if_pos rfl, parseInt_intBytes]
      rfl
  | bulkString b => exact readFrame_bulkString b rest
  | array items =>
      apply readFrame_array
      apply readItems_wireAll h.2
      rw [BytesFrame.wire, List.length_append, length_header] at hleft
      rw [List.length_append]
      omega
  | null => exact readFrame_header 36 (by decide)

theorem readItems_wireAll {fs : List BytesFrame} (h : FramedAll fs) {rest : Bytes} {left : Nat}
    (hleft : (wireAll fs ++ rest).length ≤ left) :
    readItems (readFrame left) fs.length (wireAll fs ++ rest) = some (fs, rest) := by
  cases fs with
  | nil => rfl
  | cons f fs =>
      rw [wireAll, List.append_assoc] at hleft ⊢
      have hrest : (wireAll fs ++ rest).length ≤ left := by
        rw [List.length_append] at hleft
        omega
      rw [List.length_cons, readItems, readFrame_wire h.1 hleft]
      show (readItems (readFrame left) fs.length (wireAll fs ++ rest)).bind _ = _
      rw [readItems_wireAll h.2 hrest]
      rfl

end

/-! ## Whole and cut frames -/

theorem readWhole_wire {f : BytesFrame} (h : f.Framed) (rest : Bytes) :
    readWhole (f.wire ++ rest) = some (f, rest) := by
  obtain ⟨g, hg⟩ := h.frame
  have hpos := g.length_bytes_pos
  have hlen : frameLen (f.wire ++ rest) (f.wire ++ rest).length 0 = .ok g.bytes.length := by
    rw [← hg]
    exact frameLen_bytes g rfl (Nat.le_refl _)
  unfold readWhole
  rw [hlen]
  show (if g.bytes.length = 0 then _ else _) = _
  rw [if_neg (by omega), readFrame_wire h (Nat.le_refl _)]

theorem readWhole_cut {f : BytesFrame} (h : f.Framed) {p : Bytes} (hp : p <+: f.wire)
    (hne : p ≠ f.wire) : readWhole p = none := by
  obtain ⟨g, hg⟩ := h.frame
  rw [← hg] at hp hne
  have hcut : frameLen p p.length 0 = .ok 0 := frameLen_cut g rfl hp hne (Nat.le_refl _)
  unfold readWhole
  rw [hcut]
  rfl

/-! ## The codec -/

def codec : RedisProtocol where
  encode f := .ok f.wire
  decode bs := .ok ((readWhole bs).map fun (f, rest) => (f, bs.length - rest.length))

theorem framedAll_bulkStrings (argv : List Bytes) : FramedAll (argv.map .bulkString) := by
  induction argv with
  | nil => trivial
  | cons arg argv ih => exact ⟨trivial, ih⟩

theorem bytesAll_bulks (argv : List Bytes) :
    bytesAll (argv.map Frame.bulk) = wireAll (argv.map .bulkString) := by
  induction argv with
  | nil => rfl
  | cons arg argv ih =>
      rw [List.map_cons, List.map_cons, bytesAll, wireAll, ih]
      rfl

theorem wire_command (argv : List Bytes) :
    (BytesFrame.array (argv.map .bulkString)).wire = (commandFrame argv).bytes := by
  unfold commandFrame
  rw [BytesFrame.wire, Frame.bytes, bytesAll_bulks, List.length_map, List.length_map]

theorem readWhole_command (argv : List Bytes) :
    readWhole (commandFrame argv).bytes = some (.array (argv.map .bulkString), []) := by
  have hpos := (commandFrame argv).length_bytes_pos
  have hlen : frameLen (commandFrame argv).bytes (commandFrame argv).bytes.length 0 =
      .ok (commandFrame argv).bytes.length :=
    frameLen_bytes (commandFrame argv) (List.append_nil _).symm
      (Nat.le_of_eq (congrArg List.length (List.append_nil _)))
  obtain ⟨left, hleft⟩ : ∃ left, (commandFrame argv).bytes.length = left + 1 :=
    ⟨(commandFrame argv).bytes.length - 1, by omega⟩
  unfold readWhole
  rw [hlen]
  show (if (commandFrame argv).bytes.length = 0 then _ else _) = _
  rw [if_neg (by omega), hleft, ← wire_command, ← List.append_nil (BytesFrame.wire _)]
  apply readFrame_array
  apply readItems_wireAll (framedAll_bulkStrings argv)
  rw [← wire_command, BytesFrame.wire, List.length_append, length_header] at hleft
  rw [List.append_nil]
  omega

theorem codec_documented : codec.Documented where
  encodes f := rfl
  decodes argv := by
    show Except.ok ((readWhole _).map _) = _
    rw [readWhole_command]
    rfl

end RustyAnt.Resp2
