import Blehostd.Events
import Blehostd.Events.Texts

namespace Blehostd

-- A UUID that a request takes for what it is.
def Usable (item : Option Json) (uuid : Uuid) : Prop :=
  ∃ json, item = some json ∧ processJsonUuid json = .ok uuid

-- The "uuid" member of the object that an event reports.
def reportedUuid (members : Members) (name : String) : Option Json :=
  ((Json.object members).getObjectItem name).bind fun item => item.getObjectItem "uuid"

def Uuid.Is128 (uuid : Uuid) : Prop :=
  ∃ value, uuid = .u128 value

theorem reportedUuid_svc (uuidToStr : Uuid → Text) (evt : DiscSvcEvt) (h : evt.status = 0) :
    reportedUuid (discSvcEvtEnc uuidToStr evt) "service" =
      some (.string (uuidToStr evt.svc.uuid)) := by
  unfold discSvcEvtEnc
  rw [if_pos h]
  rfl

theorem reportedUuid_chr (uuidToStr : Uuid → Text) (evt : DiscChrEvt) (h : evt.status = 0) :
    reportedUuid (discChrEvtEnc uuidToStr evt) "characteristic" =
      some (.string (uuidToStr evt.chr.uuid)) := by
  unfold discChrEvtEnc
  rw [if_pos h]
  rfl

theorem reportedUuid_dsc (uuidToStr : Uuid → Text) (evt : DiscDscEvt) (h : evt.status = 0) :
    reportedUuid (discDscEvtEnc uuidToStr evt) "descriptor" =
      some (.string (uuidToStr evt.dsc.uuid)) := by
  unfold discDscEvtEnc
  rw [if_pos h]
  rfl

theorem uuidText_iff (uuid : Uuid) :
    processJsonUuid (.string (canonicalUuid uuid)) = .ok uuid ↔ uuid.Is128 := by
  cases uuid with
  | u16 value =>
      rw [uuidText_short _ (show (canonicalUuid (.u16 value)).length < 36 by
        simp [canonicalUuid, hexByte, ascii])]
      simp [Uuid.Is128]
  | u32 value =>
      rw [uuidText_short _ (show (canonicalUuid (.u32 value)).length < 36 by
        simp [canonicalUuid, hexByte, ascii])]
      simp [Uuid.Is128]
  | u128 value => simp [uuidText_read, Uuid.Is128]

theorem usable_iff (uuidToStr : Uuid → Text) (hstr : ∀ uuid, uuidToStr uuid = canonicalUuid uuid)
    (uuid : Uuid) : Usable (some (.string (uuidToStr uuid))) uuid ↔ uuid.Is128 := by
  rw [hstr, ← uuidText_iff uuid]
  simp [Usable]

theorem discovered_uuid_iff (uuidToStr : Uuid → Text)
    (hstr : ∀ uuid, uuidToStr uuid = canonicalUuid uuid) :
    (∀ evt : DiscSvcEvt, evt.status = 0 →
      (Usable (reportedUuid (discSvcEvtEnc uuidToStr evt) "service") evt.svc.uuid ↔
        evt.svc.uuid.Is128)) ∧
    (∀ evt : DiscChrEvt, evt.status = 0 →
      (Usable (reportedUuid (discChrEvtEnc uuidToStr evt) "characteristic") evt.chr.uuid ↔
        evt.chr.uuid.Is128)) ∧
    ∀ evt : DiscDscEvt, evt.status = 0 →
      (Usable (reportedUuid (discDscEvtEnc uuidToStr evt) "descriptor") evt.dsc.uuid ↔
        evt.dsc.uuid.Is128) := by
  refine ⟨?_, ?_, ?_⟩
  · intro evt h
    rw [reportedUuid_svc uuidToStr evt h]
    exact usable_iff uuidToStr hstr _
  · intro evt h
    rw [reportedUuid_chr uuidToStr evt h]
    exact usable_iff uuidToStr hstr _
  · intro evt h
    rw [reportedUuid_dsc uuidToStr evt h]
    exact usable_iff uuidToStr hstr _

def svcFound (uuid : Uuid) : DiscSvcEvt := ⟨1, 0, ⟨1, 9, uuid⟩⟩

theorem discovered_uuid_128 :
    Usable (reportedUuid (discSvcEvtEnc canonicalUuid (svcFound (.u128 (Vector.replicate 16 0x1a))))
      "service") (.u128 (Vector.replicate 16 0x1a)) :=
  ((discovered_uuid_iff canonicalUuid fun _ => rfl).1 (svcFound _) rfl).mpr ⟨_, rfl⟩

-- The battery service: the event names it "0x180f", and no request takes that.
theorem battery_uuid_not_usable :
    reportedUuid (discSvcEvtEnc canonicalUuid (svcFound (.u16 0x180f))) "service" =
      some (.string (ascii "0x180f")) ∧
    processJsonUuid (.string (ascii "0x180f")) = .error .erange ∧
    ¬Usable (reportedUuid (discSvcEvtEnc canonicalUuid (svcFound (.u16 0x180f))) "service")
      (.u16 0x180f) := by
  have hrefused : processJsonUuid (.string (ascii "0x180f")) = .error .erange :=
    uuidText_short _ (by decide)
  have hreported : reportedUuid (discSvcEvtEnc canonicalUuid (svcFound (.u16 0x180f))) "service" =
      some (.string (ascii "0x180f")) := by
    rw [reportedUuid_svc canonicalUuid _ rfl]
    have htext : canonicalUuid (svcFound (.u16 0x180f)).svc.uuid = ascii "0x180f" := by
      decide +kernel
    rw [htext]
  refine ⟨hreported, hrefused, ?_⟩
  intro husable
  obtain ⟨json, hjson, hread⟩ := husable
  rw [hreported] at hjson
  obtain rfl := Option.some.inj hjson
  rw [hrefused] at hread
  cases hread

end Blehostd
