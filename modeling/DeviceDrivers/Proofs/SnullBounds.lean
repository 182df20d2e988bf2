import DeviceDrivers.Proofs.SnullFreight

/-! Which bytes the driver touches. A packet's array has room for the payload of
an Ethernet frame but is filled with the header too, and the header checksum is
summed over as many words as the frame itself claims. -/

namespace DeviceDrivers.Snull
open Runs Touches

private theorem txData_inside (skb : List UInt8) : AllInside (snullTxData skb).touches := by
  simp only [snullTxData, ite_touches]
  split
  next short => simp [Touch.Inside, le_of_lt short]
  next => simp

private theorem exchangeAddresses_size (buf : Block Buffer) : (exchangeAddresses buf).value.size = buf.size := rfl

private theorem exchangeAddresses_inside {buf : Block Buffer} (enough : ethZlen ≤ buf.size) :
    AllInside (exchangeAddresses buf).touches := by
  have saddr : (slice buf.bytes 26 4).length ≤ 4 := List.length_take_le ..
  have daddr : (slice buf.bytes 30 4).length ≤ 4 := List.length_take_le ..
  simp only [ethZlen] at enough
  simp only [exchangeAddresses, bind_touches, Block.loads_touches, Block.loads_value, Block.stores_touches,
    Block.stores_value, Block.load_touches, Block.store_touches, List.cons_append, List.nil_append, allInside_cons,
    allInside_nil, Touch.Inside, and_true]
  omega

/-- The sum over the header is the only access of `snull_hw_tx` that can leave the frame. -/
private theorem hwTxFrame_inside {ipFastCsum : List UInt8 → Nat → UInt16} {beyond : List UInt8} {buf : Block Buffer}
    (full : buf.Full) (enough : ethZlen ≤ buf.size) :
    AllInside (snullHwTxFrame ipFastCsum beyond buf).touches ↔
      ethHlen + 4 * ihl (buf.bytes.getD ethHlen 0) ≤ buf.size := by
  have rebuild {buf : Block Buffer} (full : buf.Full) (enough : ethZlen ≤ buf.size) :
      AllInside (rebuildChecksum ipFastCsum beyond buf).touches ↔
        ethHlen + 4 * ihl (buf.bytes.getD ethHlen 0) ≤ buf.size := by
    simp only [ethZlen] at enough
    have first : (splice buf.bytes 24 [0, 0]).getD ethHlen 0 = buf.bytes.getD ethHlen 0 := by
      simp only [List.getD_eq_getElem?_getD]
      rw [getElem?_splice (by rw [full]; simp; omega), if_neg (by simp [ethHlen])]
    simp only [rebuildChecksum, bind_touches, Block.stores_touches, Block.stores_value, Block.load_touches,
      Block.load_value, Block.touch_touches, first, List.cons_append, List.nil_append, allInside_cons, allInside_nil,
      Touch.Inside, OnesComplement.be16, List.length_cons, List.length_nil, and_true]
    simp only [ethHlen]
    omega
  have bytes : 0x26 < buf.bytes.length := full ▸ Nat.lt_of_lt_of_le (by decide) enough
  have exchanged : (exchangeAddresses buf).value.Full := (exchangeAddresses_length bytes).trans full
  have version : (exchangeAddresses buf).value.bytes.getD ethHlen 0 = buf.bytes.getD ethHlen 0 := by
    simp only [List.getD_eq_getElem?_getD]
    rw [exchangeAddresses_bytes bytes]
    simp [ethHlen]
  have size (buf : Block Buffer) : (rebuildChecksum ipFastCsum beyond buf).value.size = buf.size := rfl
  simp only [snullHwTxFrame, bind_touches]
  split
  next ping =>
    simp only [bind_touches, pure_touches, Block.load_touches, Block.touch_touches, size,
      exchangeAddresses_size, List.cons_append, List.nil_append, allInside_append, allInside_cons, allInside_nil,
      exchangeAddresses_inside enough, rebuild exchanged enough, version]
    simp only [Touch.Inside, headerLen, ethHlen, ethZlen, and_true, true_and] at enough ⊢
    omega
  next plain =>
    simp only [bind_touches, pure_touches, pure_value, Block.load_touches, Block.touch_touches, size,
      List.cons_append, List.nil_append, allInside_append, allInside_cons, allInside_nil, rebuild full enough]
    simp only [Touch.Inside, headerLen, ethHlen, ethZlen, and_true] at enough ⊢
    omega

private theorem fillPayload_inside (old : Payload) (buf : Block Buffer) :
    AllInside (fillPayload old buf).touches ↔ buf.size ≤ ethDataLen := by
  simp [fillPayload, Touch.Inside]

private theorem copyOut_inside {pkt : Payload} (fits : pkt.datalen ≤ ethDataLen) : AllInside (copyOut pkt).touches := by
  simp [copyOut, Touch.Inside, fits]

private theorem rxFrame_inside {pkt : Payload} (enough : ethZlen ≤ pkt.datalen) (fits : pkt.datalen ≤ ethDataLen) :
    AllInside (snullRxFrame pkt).touches := by
  have size : (copyOut pkt).value.size = pkt.datalen := rfl
  have convert {skb : Block Buffer} (enough : ethZlen ≤ skb.size) : AllInside (convertEcho skb).touches := by
    simp only [ethZlen] at enough
    simp only [convertEcho, bind_touches, ite_touches]
    split
    · split
      next request =>
        simp only [Block.load_touches, Block.touch_touches, Block.store_touches, Block.store_value,
          List.cons_append, List.nil_append, allInside_cons, allInside_nil, Touch.Inside, ethHlen, and_true]
        omega
      next reply =>
        simp only [pure_touches, Block.load_touches, Block.touch_touches, List.cons_append, List.nil_append,
          allInside_cons, allInside_nil, Touch.Inside, ethHlen, and_true]
        omega
    · simp only [pure_touches, Block.load_touches, List.cons_append, List.nil_append, allInside_cons, allInside_nil,
        Touch.Inside, ethHlen, and_true]
      omega
  simp only [snullRxFrame, bind_touches, allInside_append]
  exact ⟨copyOut_inside fits, convert (size ▸ enough)⟩

def FrameInside (frame : List UInt8) : Prop :=
  (zeroPadded frame).length ≤ ethDataLen ∧
    ethHlen + 4 * ihl ((zeroPadded frame).getD ethHlen 0) ≤ (zeroPadded frame).length

instance (frame : List UInt8) : Decidable (FrameInside frame) := inferInstanceAs (Decidable (_ ∧ _))

private theorem enterTouches_inside (cfg : Config) (beyond : List UInt8) (skb : Skb) :
    AllInside (enterTouches cfg beyond skb) ↔
      ethHlen + 4 * ihl ((zeroPadded skb.data).getD ethHlen 0) ≤ (zeroPadded skb.data).length := by
  have size : (padded skb.data).size = (zeroPadded skb.data).length := by
    rw [← padded_zeroPadded]
    exact (padded_full _).symm
  rw [enterTouches, allInside_append, hwTxFrame_inside (padded_full _) (padded_enough _), padded_zeroPadded, size]
  exact and_iff_right (txData_inside _)

private theorem transmit_size (cfg : Config) (beyond : List UInt8) (skb : Skb) (dev : Dev) :
    (transmit cfg beyond skb dev).buf.size = max ethZlen skb.data.length := padded_size _

variable {cfg : Config} {l : Lists} {bufs : List Addr}

/-- What the network stack hands down: at least an Ethernet header, at most the MTU behind it. -/
def Action.Handed (m : Machine) : Action → Prop
  | .startTx dev skb _ => ethHlen ≤ skb.data.length ∧ skb.data.length ≤ (m.state.device dev).mtu + ethHlen
  | _ => True

instance (m : Machine) (action : Action) : Decidable (action.Handed m) :=
  match action with
  | .startTx _ _ _ => inferInstanceAs (Decidable (_ ∧ _))
  | .open _ | .release _ | .changeMtu _ _ | .startTimeout _ | .startInterrupt _ | .startPoll _ _ | .run _ _ =>
    inferInstanceAs (Decidable True)

private abbrev Bounded (_ : Dev) (skb : Skb) (_ : List UInt8) : Prop := FrameInside skb.data

private theorem Shipped.fits {dev : Dev} {pkt : Payload} (shipped : Shipped cfg Bounded dev pkt) :
    ethZlen ≤ pkt.datalen ∧ pkt.datalen ≤ ethDataLen := by
  obtain ⟨sender, skb, beyond, old, bounded, _, rfl⟩ := shipped
  have size : (fillPayload old (transmit cfg beyond skb sender).buf).value.datalen = max ethZlen skb.data.length :=
    transmit_size cfg beyond skb sender
  have fits := bounded.1
  rw [zeroPadded_length] at fits
  omega

private theorem Hauled.inside {c : Control} {g g' : Cargo} {point : Point} {progress : Progress}
    (hauled : Hauled cfg c g point progress g') (holds : Represents c.links l)
    (queued : ∀ dev, ∀ pkt ∈ l.rx dev, Shipped cfg Bounded dev (g.payload pkt))
    (laden : point.Laden cfg Bounded g.payload) (inside : AllInside g.touched) : AllInside g'.touched := by
  cases hauled with
  | @entered dev skb beyond =>
    exact (allInside_append _ _).mpr ⟨inside, (enterTouches_inside ..).mpr laden.2⟩
  | @filled tx pkt =>
    obtain ⟨dev, skb, beyond, bounded, rfl⟩ := laden
    have fits := bounded.1
    rw [zeroPadded_length] at fits
    exact (allInside_append _ _).mpr ⟨inside, (fillPayload_inside ..).mpr (by rw [transmit_size]; exact fits)⟩
  | @received dev caller pkt signalled head =>
    obtain ⟨rest, front, _⟩ := holds.rx_front head
    obtain ⟨enough, fits⟩ := (queued dev pkt (by simp [front])).fits
    exact (allInside_append _ _).mpr ⟨inside, rxFrame_inside enough fits⟩
  | polled => exact (allInside_append _ _).mpr ⟨inside, copyOut_inside (Shipped.fits laden).2⟩
  | rested => exact inside

/-- A call on its way to touch something outside. -/
@[simp] def Point.Doomed : Point → Prop
  | .enterTx _ skb _ => ¬ FrameInside skb.data
  | .getBuffer tx | .fill tx _ => ¬ tx.buf.size ≤ ethDataLen
  | _ => False

private theorem Hauled.touched {c : Control} {g g' : Cargo} {point : Point} {progress : Progress}
    (hauled : Hauled cfg c g point progress g') : ∃ more, g'.touched = g.touched ++ more := by
  cases hauled with
  | rested => exact ⟨[], by simp⟩
  | _ => exact ⟨_, rfl⟩

private theorem Hauled.doomed {c c' : Control} {g g' : Cargo} {point : Point} {progress : Progress}
    (hauled : Hauled cfg c g point progress g') (advance : Advance cfg c point progress c') (doomed : point.Doomed) :
    ¬ AllInside g'.touched ∨ ∃ next ∈ progress.points, next.Doomed := by
  cases hauled with
  | @entered dev skb beyond =>
    by_cases header : AllInside (enterTouches cfg beyond skb)
    · right
      refine ⟨.getBuffer (transmit cfg beyond skb dev), by simp, ?_⟩
      have long : ¬ (zeroPadded skb.data).length ≤ ethDataLen := fun fits =>
        doomed ⟨fits, (enterTouches_inside ..).mp header⟩
      rw [zeroPadded_length] at long
      simpa only [Point.Doomed, transmit_size] using long
    · exact .inl fun inside => header ((allInside_append _ _).mp inside).2
  | @filled tx pkt =>
    exact .inl fun inside => doomed ((fillPayload_inside ..).mp ((allInside_append _ _).mp inside).2)
  | received | polled => cases doomed
  | rested still =>
    cases advance with
    | @gotBuffer tx pkt head => exact .inr ⟨.fill tx pkt, by simp, doomed⟩
    | tooShort | entered | filled => cases still
    | _ => cases doomed

private theorem touched_changeMtu (s : State) (dev : Dev) (mtu : Int) :
    (snullChangeMtu dev mtu s).2.touched = s.touched := congrArg Cargo.touched (cargo_changeMtu s dev mtu)

private theorem inside_step {m m' : Machine} {action : Action} (distinct : bufs.Nodup)
    (kept : ∃ l, Freight cfg Bounded bufs m l) (inside : AllInside m.state.touched) (sends : action.Sends Bounded)
    (stepped : m.step cfg action = some m') :
    (∃ l, Freight cfg Bounded bufs m' l) ∧ AllInside m'.state.touched := by
  obtain ⟨l, kept⟩ := kept
  refine ⟨⟨_, kept.step distinct sends stepped⟩, ?_⟩
  cases Machine.step_cases stepped with
  | opened | closed | startedTx | startedTimeout | startedInterrupt | startedPoll => exact inside
  | @mtu dev mtu =>
    rw [touched_changeMtu]
    exact inside
  | @ran index memory before point after progress state found shape taken =>
    exact (Point.step_hauled taken).inside kept.represents kept.queued (kept.laden point (by simp [shape])) inside

private theorem doomed_step {m m' : Machine} {action : Action}
    (doomed : ¬ AllInside m.state.touched ∨ ∃ point ∈ m.calls, point.Doomed)
    (stepped : m.step cfg action = some m') :
    ¬ AllInside m'.state.touched ∨ ∃ point ∈ m'.calls, point.Doomed := by
  have started (entry : Point) : ¬ AllInside m.state.touched ∨ ∃ point ∈ (m.start entry).calls, point.Doomed :=
    doomed.imp_right fun ⟨point, member, bad⟩ => ⟨point, List.mem_append_left _ member, bad⟩
  cases Machine.step_cases stepped with
  | opened | closed => exact doomed
  | @mtu dev mtu =>
    rw [touched_changeMtu]
    exact doomed
  | startedTx | startedTimeout | startedInterrupt | startedPoll => exact started _
  | @ran index memory before point after progress state found shape taken =>
    have hauled := Point.step_hauled taken
    obtain ⟨more, grown⟩ := hauled.touched
    have grown : state.touched = m.state.touched ++ more := grown
    rcases doomed with outside | ⟨other, member, bad⟩
    · exact .inl fun inside => outside ((allInside_append _ _).mp (grown ▸ inside)).1
    · simp only [shape, List.mem_append, List.mem_cons] at member
      rcases member with member | rfl | member
      · exact .inr ⟨other, by simp [member], bad⟩
      · rcases hauled.doomed (Point.step_advance taken) bad with outside | ⟨next, member, bad⟩
        · exact .inl outside
        · exact .inr ⟨next, by simp [member], bad⟩
      · exact .inr ⟨other, by simp [member], bad⟩

/-- In either mode and over any interleaving of any calls, with any MTUs and
any frames the stack may hand down: while all frames sent are inside, so is all
that is touched, and once no call is left that is the only way it can be. -/
theorem touched_inside_iff (cfg : Config) (kmalloc : Dev → Nat → Bool) (contents : Addr → Packet)
    (actions : List Action) (m : Machine)
    (run : Run (Machine.step cfg) Action.Handed ⟨setUp cfg kmalloc contents, []⟩ actions m) :
    ((∀ dev skb beyond, .startTx dev skb beyond ∈ actions → FrameInside skb.data) → AllInside m.state.touched) ∧
      (m.calls = [] → AllInside m.state.touched →
        ∀ dev skb beyond, .startTx dev skb beyond ∈ actions → FrameInside skb.data) := by
  constructor
  · intro frames
    have sends : ∀ action ∈ actions, action.Sends Bounded := by
      intro action member
      cases action with
      | startTx dev skb beyond => exact frames dev skb beyond member
      | _ => trivial
    have distinct := List.nodup_range (n := (setUp cfg kmalloc contents).fresh)
    refine ((run.restrict sends).invariant
      (fun m => (∃ l, Freight cfg Bounded (List.range (setUp cfg kmalloc contents).fresh) m l) ∧
        AllInside m.state.touched) ⟨Freight.initial, ?_⟩ ?_).2
    · simp [setUp_logs]
    · intro m action m' ⟨kept, inside⟩ permitted stepped
      exact inside_step distinct kept inside permitted.2 stepped
  · intro idle inside dev skb beyond member
    have settled : Run _ (Both _ fun _ action => action.Sends Bounded) _ actions m ∨ _ :=
      run.good_or_debt (fun _ => True) (fun m => ¬ AllInside m.state.touched ∨ ∃ point ∈ m.calls, point.Doomed)
        trivial (fun _ _ _ _ _ _ => trivial) ?_ fun _ _ _ _ doomed _ stepped => doomed_step doomed stepped
    · rcases settled with good | outside | ⟨point, running, _⟩
      · obtain ⟨state, _, sent⟩ := good.permitted _ member
        exact sent
      · exact absurd inside outside
      · simp [idle] at running
    · intro m action m' _ _ stepped bad
      cases Machine.step_cases stepped with
      | startedTx => exact .inr ⟨_, List.mem_append_right _ (List.mem_singleton_self _), bad⟩
      | _ => exact absurd trivial bad

theorem touched_inside_iff_ping : ∃ m : Machine, m.calls = [] ∧ m.state.touched ≠ [] ∧ AllInside m.state.touched := by
  have reached : ∃ m : Machine, Run (Machine.step (sample 2 0)) Action.Handed
      ⟨setUp (sample 2 0) (fun _ _ => true) sampleMemory, []⟩
      (.open .sn0 :: .startTx .sn0 ⟨0, samplePing⟩ [] :: List.replicate 13 (.run 0 true)) m ∧
      m.calls = [] ∧ m.state.touched ≠ [] := reaches_of_execute (by decide +kernel)
  obtain ⟨m, run, idle, touched⟩ := reached
  refine ⟨m, idle, touched, (touched_inside_iff _ _ _ _ m run).1 ?_⟩
  intro dev skb beyond member
  simp only [List.mem_cons, List.mem_replicate, reduceCtorEq, Action.startTx.injEq, false_or, and_false,
    or_false] at member
  obtain ⟨_, rfl, _⟩ := member
  decide

/-- A frame with a full payload does not fit: the header takes it past the end of the packet. -/
theorem full_frame_overruns : ¬ ∀ (cfg : Config) (kmalloc : Dev → Nat → Bool) (contents : Addr → Packet)
    (actions : List Action) (m : Machine),
    Run (Machine.step cfg) Action.Handed ⟨setUp cfg kmalloc contents, []⟩ actions m → AllInside m.state.touched := by
  intro claim
  have reached : ∃ m : Machine, Run (Machine.step (sample 2 0)) Action.Handed
      ⟨setUp (sample 2 0) (fun _ _ => true) sampleMemory, []⟩
      [.open .sn0, .startTx .sn0 ⟨0, List.replicate 1514 0⟩ [], .run 0 true, .run 0 true, .run 0 true] m ∧
      ¬ AllInside m.state.touched := reaches_of_execute (by decide +kernel)
  obtain ⟨m, run, outside⟩ := reached
  exact outside (claim _ _ _ _ m run)

end DeviceDrivers.Snull
