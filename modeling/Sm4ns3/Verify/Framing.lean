import Sm4ns3.Network.Connection

/-!
# Framing

The stream of several bundles is read back bundle by bundle. `readBundle_frame`:
whichever way one is read, the read takes exactly its octets and stops at the
next header; `stream_framing` follows by induction on the bundles.
-/

namespace Sm4ns3.Session

open Bytes Cpp Call

/-- The two ways to read a bundle. -/
inductive ReadMode where
  /-- `Session::read` -/
  | sync
  /-- `Session::async_read` -/
  | async
  deriving DecidableEq, Repr

/-- `async_read`, run until the user's handler is called; `none` if with an error. -/
def readAsync : Call Session (Option (BundleHeader × StdString)) := do
  async_read
  match ← completeHeader with
  | .called _ _ _ => return none
  | .reading h =>
    match ← completeData with
    | .called .success _ (some t) => return some (h, t)
    | _ => return none

def readBundle : ReadMode → Call Session (Option (BundleHeader × StdString))
  | .sync => read
  | .async => readAsync

/-- Write bundles in order. -/
def writeAll : List (BundleHeader × StdString) → Call Session Unit :=
  forEach fun bundle => do
    let _ ← write bundle.1 bundle.2

/-- Read one bundle in each of the given ways. -/
def readAll : List ReadMode → Call Session (List (Option (BundleHeader × StdString)))
  | [] => return []
  | mode :: modes => do
    let bundle ← readBundle mode
    let rest ← readAll modes
    return bundle :: rest

/-- The octets of a bundle on the stream. -/
def frame (bundle : BundleHeader × StdString) : StdString :=
  BundleParser.make_bundle_header_v1 bundle.1 ++ bundle.2

/-- The counts fit their octets, and the header announces the payload, which is not empty. -/
structure Framed (bundle : BundleHeader × StdString) : Prop where
  fits : bundle.1.Fits
  length : bundle.1.remLen.toNat = bundle.2.length
  nonempty : 1 ≤ bundle.2.length

theorem Framed.remLen_ne {bundle : BundleHeader × StdString} (h : Framed bundle) :
    bundle.1.remLen ≠ 0 := by
  intro hzero
  have hlen := h.length
  have hpos := h.nonempty
  rw [hzero, UInt32.toNat_zero] at hlen
  omega

/-! ## One bundle -/

theorem readExactly_append {s : Session} {a rest : StdString} (h : s.input = a ++ rest) :
    readExactly a.length s = .ok (.ok a) { s with input := rest } := by
  have hle : a.length ≤ s.input.length := by
    rw [h, List.length_append]
    omega
  simp only [readExactly, get_bind_apply]
  rw [if_pos hle, set_bind_apply, h, List.drop_left, List.take_left]
  rfl

theorem write_frame {s : Session} (hopen : s.is_open = true) (bundle : BundleHeader × StdString) :
    ∃ b s', write bundle.1 bundle.2 s = .ok b s' ∧ s'.is_open = true ∧
      s'.output = s.output ++ frame bundle := by
  refine ⟨decide (toInt (frame bundle).length ≠ 0), { s with
    outbound_header_ := BundleParser.make_bundle_header_v1 bundle.1
    output := s.output ++ frame bundle }, ?_, hopen, rfl⟩
  simp only [write, modify_bind_apply, BundleParser.make_bundle_header, NEW_BUNDLES, if_true]
  rw [if_neg (by simp [BundleParser.make_bundle_header_v1]), get_bind_apply, hopen]
  rfl

/-- The header of a framed bundle is read back. -/
theorem Framed.read_header {bundle : BundleHeader × StdString} (h : Framed bundle) :
    BundleParser.read_bundle_header NEW_BUNDLES (BundleParser.make_bundle_header_v1 bundle.1) =
      .ok bundle.1 :=
  BundleParser.read_make_v1 h.fits

theorem read_frame {s : Session} {bundle : BundleHeader × StdString} {rest : StdString}
    (hb : Framed bundle) (h : s.input = frame bundle ++ rest) :
    ∃ s', read s = .ok (some bundle) s' ∧ s'.input = rest := by
  have hhead := readExactly_append (h.trans (List.append_assoc ..))
  rw [BundleParser.length_make_bundle_header_v1] at hhead
  have hne : bundle.2.isEmpty = false := by
    cases hnil : bundle.2 with
    | nil => exact absurd hb.nonempty (by simp [hnil])
    | cons c t => rfl
  unfold read
  rw [bind_ok hhead]
  simp only [modify_bind_apply, hb.read_header, eval_ok, pure_bind_apply]
  rw [if_neg hb.remLen_ne, hb.length, bind_ok (readExactly_append rfl)]
  simp only [modify_bind_apply, hne, Bool.false_eq_true, if_false]
  exact ⟨_, rfl, rfl⟩

@[simp] theorem length_resize (data : StdString) (n : Nat) : (resize data n).length = n := by
  simp only [resize, List.length_append, List.length_take, List.length_replicate]
  omega

theorem completeHeader_frame {s : Session} {bundle : BundleHeader × StdString} {rest : StdString}
    (hb : Framed bundle) (h : s.input = frame bundle ++ rest) :
    ∃ s', completeHeader s = .ok (.reading bundle.1) s' ∧ s'.input = bundle.2 ++ rest ∧
      s'.inbound_data_.length = bundle.2.length := by
  have hin : { s with pending := s.pending.erase .header }.input =
      BundleParser.make_bundle_header_v1 bundle.1 ++ (bundle.2 ++ rest) :=
    h.trans (List.append_assoc ..)
  have hhead := readExactly_append hin
  rw [BundleParser.length_make_bundle_header_v1] at hhead
  unfold completeHeader
  rw [modify_bind_apply, bind_ok hhead]
  simp only [modify_bind_apply, handle_read_header]
  rw [if_neg (by simp), get_bind_apply]
  simp only [hb.read_header, eval_ok, pure_bind_apply]
  rw [if_neg hb.remLen_ne]
  exact ⟨_, rfl, rfl, by simp [hb.length]⟩

theorem completeData_frame {s : Session} {t rest : StdString}
    (h : s.input = t ++ rest) (hlen : s.inbound_data_.length = t.length) :
    ∃ s', completeData s = .ok (.called .success none (some t)) s' ∧ s'.input = rest := by
  have hin : { s with pending := s.pending.erase .data }.input = t ++ rest := h
  unfold completeData
  simp only [modify_bind_apply, get_bind_apply, hlen]
  rw [bind_ok (readExactly_append hin)]
  exact ⟨_, rfl, rfl⟩

theorem readAsync_frame {s : Session} {bundle : BundleHeader × StdString} {rest : StdString}
    (hb : Framed bundle) (h : s.input = frame bundle ++ rest) :
    ∃ s', readAsync s = .ok (some bundle) s' ∧ s'.input = rest := by
  have hin : { s with pending := s.pending ++ [AsyncRead.header] }.input = frame bundle ++ rest := h
  obtain ⟨s1, hhead, hin1, hlen⟩ := completeHeader_frame hb hin
  obtain ⟨s2, hdata, hin2⟩ := completeData_frame hin1 hlen
  refine ⟨s2, ?_, hin2⟩
  unfold readAsync async_read
  rw [modify_bind_apply, bind_ok hhead]
  simp only
  rw [bind_ok hdata]
  rfl

theorem readBundle_frame (mode : ReadMode) {s : Session} {bundle : BundleHeader × StdString}
    {rest : StdString} (hb : Framed bundle) (h : s.input = frame bundle ++ rest) :
    ∃ s', readBundle mode s = .ok (some bundle) s' ∧ s'.input = rest := by
  cases mode with
  | sync => exact read_frame hb h
  | async => exact readAsync_frame hb h

/-! ## A stream of bundles -/

theorem writeAll_frames {s : Session} (hopen : s.is_open = true)
    (bundles : List (BundleHeader × StdString)) :
    ∃ s', writeAll bundles s = .ok () s' ∧
      s'.output = s.output ++ (bundles.map frame).flatten := by
  induction bundles generalizing s with
  | nil => exact ⟨s, rfl, by simp⟩
  | cons bundle bundles ih =>
    obtain ⟨b, s1, hwrite, hopen1, hout1⟩ := write_frame hopen bundle
    obtain ⟨s2, hrest, hout2⟩ := ih hopen1
    refine ⟨s2, ?_, by rw [hout2, hout1]; simp⟩
    have hone : (write bundle.1 bundle.2 >>= fun _ => pure ()) s = .ok () s1 :=
      (bind_ok hwrite _).trans rfl
    exact (bind_ok hone _).trans hrest

theorem readAll_frames {s : Session} {bundles : List (BundleHeader × StdString)}
    {modes : List ReadMode} (hmodes : modes.length = bundles.length)
    (hb : ∀ bundle ∈ bundles, Framed bundle) (h : s.input = (bundles.map frame).flatten) :
    ∃ s', readAll modes s = .ok (bundles.map some) s' ∧ s'.input = [] := by
  induction bundles generalizing s modes with
  | nil =>
    obtain rfl : modes = [] := List.length_eq_zero_iff.mp hmodes
    exact ⟨s, rfl, h⟩
  | cons bundle bundles ih =>
    obtain ⟨mode, modes, rfl⟩ := List.exists_cons_of_length_eq_add_one hmodes
    obtain ⟨s1, hread, hin⟩ := readBundle_frame mode (hb bundle List.mem_cons_self) h
    obtain ⟨s2, hrest, hend⟩ := ih (by simpa using hmodes)
      (fun b hmem => hb b (List.mem_cons_of_mem bundle hmem)) hin
    refine ⟨s2, ?_, hend⟩
    unfold readAll
    rw [bind_ok hread, bind_ok hrest]
    rfl

/-- Bundles written in order are read back in order, each synchronously or
asynchronously, and no octet is left over. -/
theorem stream_framing {writer reader : Session} {bundles : List (BundleHeader × StdString)}
    {modes : List ReadMode} (hopen : writer.is_open = true)
    (hb : ∀ bundle ∈ bundles, Framed bundle) (hmodes : modes.length = bundles.length) :
    ∃ writer' stream, writeAll bundles writer = .ok () writer' ∧
      writer'.output = writer.output ++ stream ∧
      ∃ reader', readAll modes { reader with input := stream } = .ok (bundles.map some) reader' ∧
        reader'.input = [] := by
  obtain ⟨writer', hwrite, hout⟩ := writeAll_frames hopen bundles
  exact ⟨writer', _, hwrite, hout, readAll_frames hmodes hb rfl⟩

/-- A header for a body of three octets. -/
def threeOctets : BundleHeader × StdString :=
  ({ sendIdLen := 1, destIdLen := 0, messageCount := 255, remLen := 3 }, [1, 0, 255])

theorem framed_threeOctets : Framed threeOctets :=
  ⟨⟨by decide, by decide, by decide⟩, rfl, by decide⟩

theorem stream_framing_two :
    ∃ writer' stream, writeAll [threeOctets, threeOctets] { is_open := true } = .ok () writer' ∧
      writer'.output = ({ is_open := true } : Session).output ++ stream ∧
      ∃ reader', readAll [.async, .sync] { ({} : Session) with input := stream } =
          .ok ([threeOctets, threeOctets].map some) reader' ∧
        reader'.input = [] :=
  stream_framing rfl (fun bundle hb => by
    obtain rfl : bundle = threeOctets := by simpa using hb
    exact framed_threeOctets) rfl

end Sm4ns3.Session
