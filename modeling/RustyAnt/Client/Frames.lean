import RustyAnt.Client.Connection

/-!
# RESP2 frames

The frames of RESP2 and their bytes.  A concatenation of frames is split into them, and one
that ends within a frame is not split at all.
-/

namespace RustyAnt.Client

open Lib Lib.PyBytes Lib.Decimal

/-! ## Frames -/

inductive LineKind where
  | simple
  | error
  | integer

def LineKind.mark : LineKind → UInt8
  | simple => 43
  | error => 45
  | integer => 58

/-- A text of one line.  RESP2 forbids a line feed in it as well, which nothing here needs. -/
structure Line where
  text : List UInt8
  no_cr : (13 : UInt8) ∉ text

inductive Frame where
  | line (kind : LineKind) (line : Line)
  | bulk (data : List UInt8)
  | nilBulk
  | array (items : List Frame)
  | nilArray

/-- The first line of a frame. -/
def header (mark : UInt8) (text : List UInt8) : List UInt8 := (mark :: text) ++ [13, 10]

/-- `-1` -/
def nilLength : List UInt8 := [45, 49]

mutual

def Frame.bytes : Frame → List UInt8
  | .line kind line => header kind.mark line.text
  | .bulk data => header 36 (natBytes data.length) ++ (data ++ [13, 10])
  | .nilBulk => header 36 nilLength
  | .array items => header 42 (natBytes items.length) ++ bytesAll items
  | .nilArray => header 42 nilLength

def bytesAll : List Frame → List UInt8
  | [] => []
  | f :: fs => f.bytes ++ bytesAll fs

end

theorem length_header (mark : UInt8) (text : List UInt8) :
    (header mark text).length = text.length + 3 := by
  unfold header
  simp

theorem no_cr_natBytes (n : Nat) : (13 : UInt8) ∉ natBytes n := by
  intro hmem
  exact absurd (mem_natBytes hmem).1 (by decide)

theorem Frame.length_bytes_pos (f : Frame) : 0 < f.bytes.length := by
  cases f with
  | line kind line => rw [Frame.bytes, length_header]; omega
  | bulk data => rw [Frame.bytes, List.length_append, length_header]; omega
  | nilBulk => rw [Frame.bytes, length_header]; omega
  | array items => rw [Frame.bytes, List.length_append, length_header]; omega
  | nilArray => rw [Frame.bytes, length_header]; omega

/-! ## What `_frame_len` makes of a header -/

variable {buf text p q : List UInt8} {left start : Nat} {mark : UInt8} {n : Int}

theorem findCrlfFrom_of_drop (h : buf.drop start = p) :
    findCrlfFrom buf start = (findCrlf p).map (start + ·) := by
  unfold findCrlfFrom
  rw [h]

theorem frameLen_no_line (h : buf.drop start = p) (hfind : findCrlf p = none) :
    frameLen buf left start = .ok 0 := by
  have hnone : findCrlfFrom buf start = none := by
    rw [findCrlfFrom_of_drop h, hfind]
    rfl
  cases left with
  | zero => rfl
  | succ left =>
      unfold frameLen
      rw [hnone]
      cases buf[start]? with
      | none => rfl
      | some b =>
          dsimp only
          split
          · rfl
          · split
            · rfl
            · split <;> rfl

theorem head_of_header (h : buf.drop start = header mark text ++ q) : buf[start]? = some mark := by
  have hhead : (buf.drop start)[0]? = some mark := by
    rw [h]
    rfl
  rwa [List.getElem?_drop, Nat.add_zero] at hhead

theorem find_of_header (h : buf.drop start = header mark text ++ q) (hmark : mark ≠ 13)
    (htext : (13 : UInt8) ∉ text) :
    findCrlfFrom buf start = some (start + (text.length + 1)) := by
  have hnone : (13 : UInt8) ∉ mark :: text := by
    rw [List.mem_cons, not_or]
    exact ⟨hmark.symm, htext⟩
  rw [findCrlfFrom_of_drop h, header, List.append_assoc]
  show (findCrlf ((mark :: text) ++ 13 :: 10 :: q)).map _ = _
  rw [findCrlf_line hnone]
  rfl

theorem text_of_header (h : buf.drop start = header mark text ++ q) :
    (buf.drop (start + 1)).take (start + (text.length + 1) - (start + 1)) = text := by
  have hlength : start + (text.length + 1) - (start + 1) = text.length := by omega
  rw [hlength, ← List.drop_drop, h]
  show (text ++ [13, 10] ++ q).take text.length = text
  rw [List.append_assoc, List.take_left]

theorem frameLen_line (h : buf.drop start = header mark text ++ q)
    (hmark : mark = 43 ∨ mark = 45 ∨ mark = 58) (htext : (13 : UInt8) ∉ text) :
    frameLen buf (left + 1) start = .ok (header mark text).length := by
  have hne : mark ≠ 13 := by
    rintro rfl
    revert hmark
    decide
  unfold frameLen
  rw [head_of_header h, find_of_header h hne htext, length_header]
  dsimp only
  rw [if_pos hmark]
  congr 1
  omega

theorem frameLen_bulk (h : buf.drop start = header 36 text ++ q) (htext : (13 : UInt8) ∉ text)
    (hint : int text = some n) :
    frameLen buf (left + 1) start =
      if n < 0 then .ok (header 36 text).length
      else if q.length < n.toNat + 2 then .ok 0
      else .ok ((header 36 text).length + (n.toNat + 2)) := by
  have hlength := congrArg List.length h
  rw [List.length_drop, List.length_append, length_header] at hlength
  unfold frameLen
  rw [head_of_header h, find_of_header h (by decide) htext, length_header]
  dsimp only
  rw [if_neg (by decide), if_pos rfl, text_of_header h, hint]
  dsimp only
  by_cases hneg : n < 0
  · rw [if_pos hneg, if_pos hneg]
    congr 1
    omega
  · rw [if_neg hneg, if_neg hneg]
    by_cases hshort : q.length < n.toNat + 2
    · rw [if_pos hshort, if_pos (by omega)]
    · rw [if_neg hshort, if_neg (by omega)]
      congr 1
      omega

theorem frameLen_array (h : buf.drop start = header 42 text ++ q) (htext : (13 : UInt8) ∉ text)
    (hint : int text = some n) :
    frameLen buf (left + 1) start =
      if n < 0 then .ok (header 42 text).length
      else itemsLen (frameLen buf left) start n.toNat (header 42 text).length := by
  have hpos : start + (text.length + 1) + 2 - start = text.length + 3 := by omega
  rw [frameLen, head_of_header h, find_of_header h (by decide) htext, length_header]
  dsimp only
  rw [if_neg (by decide), if_neg (by decide), if_pos rfl, text_of_header h, hint]
  dsimp only
  rw [hpos]

theorem int_nilLength : int nilLength = some (-1) := by decide

/-! ## Whole frames -/

theorem drop_behind {front : List UInt8} (h : buf.drop start = front ++ q) :
    buf.drop (start + front.length) = q := by
  rw [← List.drop_drop, h, List.drop_left]

mutual

theorem frameLen_bytes (f : Frame) {buf q : List UInt8} {left start : Nat}
    (h : buf.drop start = f.bytes ++ q) (hleft : (f.bytes ++ q).length ≤ left) :
    frameLen buf left start = .ok f.bytes.length := by
  have hpos := f.length_bytes_pos
  rw [List.length_append] at hleft
  obtain ⟨left, rfl⟩ : ∃ left', left = left' + 1 := ⟨left - 1, by omega⟩
  cases f with
  | line kind line =>
      apply frameLen_line h _ line.no_cr
      cases kind with
      | simple => exact .inl rfl
      | error => exact .inr (.inl rfl)
      | integer => exact .inr (.inr rfl)
  | bulk data =>
      rw [Frame.bytes, List.append_assoc] at h
      rw [frameLen_bulk h (no_cr_natBytes _) (int_natBytes _), if_neg (by omega), if_neg]
      · rw [Frame.bytes, List.length_append, List.length_append]
        rfl
      · rw [List.length_append, List.length_append, Int.toNat_natCast]
        show ¬ data.length + 2 + q.length < data.length + 2
        omega
  | nilBulk =>
      rw [frameLen_bulk h (by decide) int_nilLength, if_pos (by decide)]
      rfl
  | array items =>
      rw [Frame.bytes, List.append_assoc] at h
      rw [Frame.bytes, List.length_append, length_header] at hleft
      rw [frameLen_array h (no_cr_natBytes _) (int_natBytes _), if_neg (by omega),
        Int.toNat_natCast, Frame.bytes, List.length_append]
      apply itemsLen_bytes items (drop_behind h)
      rw [List.length_append]
      omega
  | nilArray =>
      rw [frameLen_array h (by decide) int_nilLength, if_pos (by decide)]
      rfl

theorem itemsLen_bytes (fs : List Frame) {buf q : List UInt8} {left start pos : Nat}
    (h : buf.drop (start + pos) = bytesAll fs ++ q) (hleft : (bytesAll fs ++ q).length ≤ left) :
    itemsLen (frameLen buf left) start fs.length pos = .ok (pos + (bytesAll fs).length) := by
  cases fs with
  | nil => rfl
  | cons f fs =>
      have hpos := f.length_bytes_pos
      rw [bytesAll, List.append_assoc] at h hleft
      rw [List.length_cons, itemsLen, frameLen_bytes f h hleft]
      show (if f.bytes.length = 0 then _ else _) = _
      rw [if_neg (by omega), itemsLen_bytes fs, bytesAll, List.length_append, Nat.add_assoc]
      · rw [← Nat.add_assoc]
        exact drop_behind h
      · rw [List.length_append] at hleft
        omega

end

/-! ## Frames cut short -/

/-- What ends in the first line has no length, and what does not has all of that line. -/
theorem frameLen_cut_header (h : buf.drop start = p) (hp : p <+: header mark text ++ q)
    (hmark : mark ≠ 13) (htext : (13 : UInt8) ∉ text) :
    frameLen buf left start = .ok 0 ∨ ∃ r, p = header mark text ++ r ∧ r <+: q := by
  have hnone : (13 : UInt8) ∉ mark :: text := by
    rw [List.mem_cons, not_or]
    exact ⟨hmark.symm, htext⟩
  rw [header, List.append_assoc] at hp
  rcases cut_of_line hnone hp with hfind | ⟨r, hr, hprefix⟩
  · exact .inl (frameLen_no_line h hfind)
  · exact .inr ⟨r, by rw [hr, header, List.append_assoc]; rfl, hprefix⟩

theorem frameLen_cut_line (h : buf.drop start = p) (hp : p <+: header mark text)
    (hne : p ≠ header mark text) (hmark : mark ≠ 13) (htext : (13 : UInt8) ∉ text) :
    frameLen buf left start = .ok 0 := by
  rw [← List.append_nil (header mark text)] at hp
  rcases frameLen_cut_header h hp hmark htext with hzero | ⟨r, hr, hq⟩
  · exact hzero
  · rw [List.prefix_nil.mp hq, List.append_nil] at hr
    exact absurd hr hne

/-- What ends in two parts ends in the first one, or has all of it. -/
theorem cut_of_append {a b : List UInt8} (hp : p <+: a ++ b) :
    (p <+: a ∧ p ≠ a) ∨ ∃ r, p = a ++ r ∧ r <+: b := by
  by_cases hne : p = a
  · exact .inr ⟨[], by rw [hne, List.append_nil], List.nil_prefix⟩
  · rcases List.prefix_or_prefix_of_prefix hp (List.prefix_append a b) with hin | ⟨r, rfl⟩
    · exact .inl ⟨hin, hne⟩
    · exact .inr ⟨r, rfl, (List.prefix_append_right_inj a).mp hp⟩

mutual

theorem frameLen_cut (f : Frame) {buf p : List UInt8} {left start : Nat}
    (h : buf.drop start = p) (hp : p <+: f.bytes) (hne : p ≠ f.bytes) (hleft : p.length ≤ left) :
    frameLen buf left start = .ok 0 := by
  cases f with
  | line kind line =>
      exact frameLen_cut_line h hp hne (by cases kind <;> decide) line.no_cr
  | bulk data =>
      rw [Frame.bytes] at hp hne
      rcases frameLen_cut_header h hp (by decide) (no_cr_natBytes _) with hzero | ⟨r, hr, hq⟩
      · exact hzero
      · have hcut := fun hlength => hne (by rw [hr, hq.eq_of_length hlength])
        have hshort := Nat.lt_of_le_of_ne hq.length_le hcut
        have hshort : r.length < data.length + 2 := by rwa [List.length_append] at hshort
        rw [hr, List.length_append, length_header] at hleft
        obtain ⟨left, rfl⟩ : ∃ left', left = left' + 1 := ⟨left - 1, by omega⟩
        rw [frameLen_bulk (h.trans hr) (no_cr_natBytes _) (int_natBytes _), if_neg (by omega),
          Int.toNat_natCast, if_pos hshort]
  | nilBulk => exact frameLen_cut_line h hp hne (by decide) (by decide)
  | array items =>
      rw [Frame.bytes] at hp hne
      rcases frameLen_cut_header h hp (by decide) (no_cr_natBytes _) with hzero | ⟨r, hr, hq⟩
      · exact hzero
      · rw [hr, List.length_append, length_header] at hleft
        obtain ⟨left, rfl⟩ : ∃ left', left = left' + 1 := ⟨left - 1, by omega⟩
        rw [frameLen_array (h.trans hr) (no_cr_natBytes _) (int_natBytes _), if_neg (by omega),
          Int.toNat_natCast]
        apply itemsLen_cut items (drop_behind (h.trans hr)) hq _ (by omega)
        intro hwhole
        exact hne (by rw [hr, hwhole])
  | nilArray => exact frameLen_cut_line h hp hne (by decide) (by decide)

theorem itemsLen_cut (fs : List Frame) {buf p : List UInt8} {left start pos : Nat}
    (h : buf.drop (start + pos) = p) (hp : p <+: bytesAll fs) (hne : p ≠ bytesAll fs)
    (hleft : p.length ≤ left) : itemsLen (frameLen buf left) start fs.length pos = .ok 0 := by
  cases fs with
  | nil => exact absurd (List.prefix_nil.mp hp) hne
  | cons f fs =>
      rw [bytesAll] at hp hne
      rw [List.length_cons, itemsLen]
      rcases cut_of_append hp with ⟨hin, hcut⟩ | ⟨r, hr, hq⟩
      · rw [frameLen_cut f h hin hcut hleft]
        rfl
      · have hpos := f.length_bytes_pos
        have hlen : frameLen buf left (start + pos) = .ok f.bytes.length := by
          apply frameLen_bytes f (h.trans hr)
          rwa [← hr]
        rw [hr, List.length_append] at hleft
        rw [hlen]
        show (if f.bytes.length = 0 then _ else _) = _
        rw [if_neg (by omega)]
        apply itemsLen_cut fs _ hq _ (by omega)
        · rw [← Nat.add_assoc]
          exact drop_behind (h.trans hr)
        · intro hwhole
          exact hne (by rw [hr, hwhole])

end

/-! ## The splitter -/

/-- The whole frames at the front of a text are split off. -/
theorem splitFrom_frames (fs : List Frame) {buf q : List UInt8} {left pos : Nat}
    {frames : List (List UInt8)} (h : buf.drop pos = bytesAll fs ++ q)
    (hleft : (bytesAll fs ++ q).length ≤ left) :
    ∃ left', q.length ≤ left' ∧ splitFrom buf left pos frames =
      splitFrom buf left' (pos + (bytesAll fs).length) (frames ++ fs.map Frame.bytes) := by
  induction fs generalizing left pos frames with
  | nil => exact ⟨left, hleft, by rw [List.map_nil, List.append_nil]; rfl⟩
  | cons f fs ih =>
      have hpos := f.length_bytes_pos
      have hlength := congrArg List.length h
      rw [bytesAll, List.append_assoc] at h hleft
      rw [bytesAll, List.length_drop, List.append_assoc, List.length_append] at hlength
      rw [List.length_append] at hleft
      obtain ⟨left, rfl⟩ : ∃ left', left = left' + 1 := ⟨left - 1, by omega⟩
      have hlen : frameLen buf (buf.length - pos) pos = .ok f.bytes.length := by
        apply frameLen_bytes f h
        rw [List.length_append]
        omega
      have hframe : (buf.drop pos).take f.bytes.length = f.bytes := by rw [h, List.take_left]
      obtain ⟨left', hleft', hrest⟩ := @ih left (pos + f.bytes.length) (frames ++ [f.bytes])
        (drop_behind h) (by omega)
      refine ⟨left', hleft', ?_⟩
      rw [splitFrom, if_pos (by omega), hlen]
      show (if f.bytes.length = 0 then _ else _) = _
      rw [if_neg (by omega), hframe, hrest, bytesAll, List.length_append, List.map_cons,
        List.append_assoc, Nat.add_assoc]
      rfl

theorem splitResp2Frames_bytesAll (fs : List Frame) :
    splitResp2Frames (bytesAll fs) = .ok (fs.map Frame.bytes) := by
  have hwhole : (bytesAll fs).drop 0 = bytesAll fs ++ [] := (List.append_nil _).symm
  obtain ⟨left, -, hsplit⟩ := @splitFrom_frames fs _ [] (bytesAll fs).length 0 [] hwhole
    (Nat.le_of_eq (congrArg List.length hwhole.symm))
  unfold splitResp2Frames
  rw [hsplit, Nat.zero_add]
  cases left with
  | zero => rfl
  | succ left => exact if_neg (Nat.lt_irrefl _)

theorem cut_of_frames (fs : List Frame) (hp : p <+: bytesAll fs)
    (hne : ∀ n, p ≠ bytesAll (fs.take n)) :
    ∃ (n : Nat) (f : Frame) (r : List UInt8), p = bytesAll (fs.take n) ++ r ∧ r <+: f.bytes ∧
      r ≠ f.bytes ∧ r ≠ [] := by
  induction fs generalizing p with
  | nil => exact absurd (List.prefix_nil.mp hp) (hne 0)
  | cons f fs ih =>
      rw [bytesAll] at hp
      rcases cut_of_append hp with ⟨hin, hcut⟩ | ⟨r, rfl, hq⟩
      · exact ⟨0, f, p, rfl, hin, hcut, hne 0⟩
      · have hrest : ∀ n, r ≠ bytesAll (fs.take n) := by
          rintro n rfl
          exact hne (n + 1) rfl
        obtain ⟨n, g, r', rfl, hg, hcut, hsome⟩ := ih hq hrest
        refine ⟨n + 1, g, r', ?_, hg, hcut, hsome⟩
        rw [List.take_succ_cons, bytesAll, List.append_assoc]

/-- What ends within a frame is refused, at the byte where that frame begins. -/
theorem splitResp2Frames_cut (fs : List Frame) (hp : p <+: bytesAll fs)
    (hne : ∀ n, p ≠ bytesAll (fs.take n)) :
    ∃ n, splitResp2Frames p = .error (notAligned (bytesAll (fs.take n)).length) := by
  obtain ⟨n, f, r, hsplit, hin, hcut, hsome⟩ := cut_of_frames fs hp hne
  have hdrop : p.drop 0 = bytesAll (fs.take n) ++ r := hsplit
  have hlength := congrArg List.length hsplit
  rw [List.length_append] at hlength
  have hpos := List.length_pos_iff.mpr hsome
  obtain ⟨left, hleft, hfront⟩ := @splitFrom_frames (fs.take n) p r p.length 0 [] hdrop
    (by rw [List.length_append]; omega)
  obtain ⟨left, rfl⟩ : ∃ left', left = left' + 1 := ⟨left - 1, by omega⟩
  have hzero := @frameLen_cut f p r (p.length - (0 + (bytesAll (fs.take n)).length)) _
    (drop_behind hdrop) hin hcut (by omega)
  refine ⟨n, ?_⟩
  unfold splitResp2Frames
  rw [hfront, splitFrom, if_pos (by omega), hzero, Nat.zero_add]
  rfl

/-! ## Pipelines -/

/-- Whatever the transport answers, the call raises, and it has sent no frame. -/
inductive RaisesUnsent : Wire Unit → Prop where
  | raise (e : PyError) : RaisesUnsent (.done (.error e))
  | connect (k : Except PyError Unit → Wire Unit) (h : ∀ r, RaisesUnsent (k r)) :
      RaisesUnsent (.call .connect k)

theorem sendPackedCommand_of_split {frames : List (List UInt8)} (sock : Bool) {command : Command}
    (h : splitResp2Frames command.join = .ok frames) :
    sendPackedCommand sock command = (ensureConnected sock).bind fun _ => sendFrames frames := by
  unfold sendPackedCommand
  rw [h]
  rfl

theorem sendPackedCommand_of_error {e : PyError} (sock : Bool) {command : Command}
    (h : splitResp2Frames command.join = .error e) : RaisesUnsent (sendPackedCommand sock command) := by
  unfold sendPackedCommand
  rw [h]
  cases sock with
  | true => exact .raise e
  | false =>
      apply RaisesUnsent.connect
      rintro (e' | _)
      · exact .raise e'
      · exact .raise e

/-- A pipeline of frames is split into them and sent one by one, and a pipeline that ends within
a frame raises before anything is sent. -/
theorem pipelines_split_exactly :
    (∀ fs : List Frame, splitResp2Frames (bytesAll fs) = .ok (fs.map Frame.bytes) ∧
      ∀ sock command, command.join = bytesAll fs →
        sendPackedCommand sock command =
          (ensureConnected sock).bind fun _ => sendFrames (fs.map Frame.bytes)) ∧
    ∀ (fs : List Frame) (p : List UInt8), p <+: bytesAll fs → (∀ n, p ≠ bytesAll (fs.take n)) →
      (∃ n, splitResp2Frames p = .error (notAligned (bytesAll (fs.take n)).length)) ∧
        ∀ sock command, command.join = p → RaisesUnsent (sendPackedCommand sock command) := by
  refine ⟨fun fs => ?_, fun fs p hp hne => ?_⟩
  · have hsplit := splitResp2Frames_bytesAll fs
    refine ⟨hsplit, fun sock command hjoin => sendPackedCommand_of_split sock ?_⟩
    rw [hjoin, hsplit]
  · obtain ⟨n, hsplit⟩ := splitResp2Frames_cut fs hp hne
    refine ⟨⟨n, hsplit⟩, fun sock command hjoin => ?_⟩
    rw [← hjoin] at hsplit
    exact sendPackedCommand_of_error sock hsplit

/-- Two commands, the first with a line end as its argument. -/
def twoCommands : List Frame := [.array [.bulk [13, 10]], .array [.bulk [97]]]

/-- The first command and half of the second one. -/
theorem twoCommands_cut_raises :
    RaisesUnsent (sendPackedCommand false (.packed ((bytesAll twoCommands).take 17))) := by
  have hne : ∀ n, (bytesAll twoCommands).take 17 ≠ bytesAll (twoCommands.take n) := by
    intro n
    match n with
    | 0 => decide +kernel
    | 1 => decide +kernel
    | n + 2 =>
        rw [List.take_of_length_le (show twoCommands.length ≤ n + 2 from Nat.le_add_left 2 n)]
        decide +kernel
  exact (pipelines_split_exactly.2 twoCommands _ (List.take_prefix 17 _) hne).2 false _ rfl

end RustyAnt.Client
