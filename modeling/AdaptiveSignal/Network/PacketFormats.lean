import AdaptiveSignal.Network.InboundParsers

/-! # Formats of inbound packets

Where the fields of a packet lie, and what a handler that stays within its message
makes of them.
-/

namespace AdaptiveSignal.Network

open Foundation

/-- A block of fields, wherever it starts: its length, the places of its fields, and
what is made of the bytes that lie there. -/
structure Format (Block : Type) where
  width : ℕ
  places : ℕ → List Place
  value : (ℕ → ℕ → List UInt8) → ℕ → Block
  inside : ∀ n, ∀ place ∈ places n, 0 < place.width ∧ place.offset + place.width ≤ n + width
  congr : ∀ bytes bytes' n, (∀ place ∈ places n,
    bytes place.offset place.width = bytes' place.offset place.width) → value bytes n = value bytes' n

/-- The place that is read with an index of 32 bits. -/
def Place.wrapped (place : Place) : Place := ⟨indexAt place.offset, place.width⟩

/-- The bytes that are read at a place with such an index. -/
def bytesRead (content : ℕ → UInt8) (offset : ℕ) : ℕ → List UInt8 :=
  bytesAt content (indexAt offset)

/-- A program reads the fields of a format, one after the other. -/
def Format.ReadBy {Block : Type} (format : Format Block) (program : StateM MsgBuf Block) : Prop :=
  ∀ content, Reads content program format.width (format.value (bytesRead content))
    fun n => (format.places n).map Place.wrapped

def commonFieldFormat : Format C2RCommonField where
  width := 35
  places n := [⟨n, 4⟩, ⟨n + 4, 1⟩, ⟨n + 5, 10⟩, ⟨n + 15, 19⟩, ⟨n + 34, 1⟩]
  value bytes n :=
    { packetLen := ofBigEndian (bytes n 4), deviceType := ofBigEndian (bytes (n + 4) 1)
      rsuName := bytes (n + 5) 10, timestamp := bytes (n + 15) 19
      serviceId := ofBigEndian (bytes (n + 34) 1) }
  inside n place hplace := by
    simp only [List.mem_cons, List.not_mem_nil, or_false] at hplace
    rcases hplace with rfl | rfl | rfl | rfl | rfl <;> constructor <;> dsimp only <;> omega
  congr bytes bytes' n h := by
    simp only [List.forall_mem_cons] at h
    simp only [h]

def pedestrianHeaderFormat : Format PedestrianHeader where
  width := 24
  places n := [⟨n, 4⟩, ⟨n + 4, 4⟩, ⟨n + 8, 4⟩, ⟨n + 12, 4⟩, ⟨n + 16, 4⟩, ⟨n + 20, 4⟩]
  value bytes n :=
    { deviceNum := ofBigEndian (bytes n 4), cameraNo := ofBigEndian (bytes (n + 4) 4)
      hour := ofBigEndian (bytes (n + 8) 4), min := ofBigEndian (bytes (n + 12) 4)
      second := ofBigEndian (bytes (n + 16) 4), count := ofBigEndian (bytes (n + 20) 4) }
  inside n place hplace := by
    simp only [List.mem_cons, List.not_mem_nil, or_false] at hplace
    rcases hplace with rfl | rfl | rfl | rfl | rfl | rfl <;> constructor <;> dsimp only <;> omega
  congr bytes bytes' n h := by
    simp only [List.forall_mem_cons] at h
    simp only [h]

def pedestrianFormat : Format Pedestrian where
  width := 6
  places n := [⟨n, 1⟩, ⟨n + 1, 2⟩, ⟨n + 3, 2⟩, ⟨n + 5, 1⟩]
  value bytes n :=
    { personId := ofBigEndian (bytes n 1), waiting := 0, cx := ofBigEndian (bytes (n + 1) 2)
      cy := ofBigEndian (bytes (n + 3) 2), direction := ofBigEndian (bytes (n + 5) 1) }
  inside n place hplace := by
    simp only [List.mem_cons, List.not_mem_nil, or_false] at hplace
    rcases hplace with rfl | rfl | rfl | rfl <;> constructor <;> dsimp only <;> omega
  congr bytes bytes' n h := by
    simp only [List.forall_mem_cons] at h
    simp only [h]

def obstacleHeaderFormat : Format ObstacleHeader where
  width := 24
  places n := [⟨n, 4⟩, ⟨n + 4, 4⟩, ⟨n + 8, 4⟩, ⟨n + 12, 4⟩, ⟨n + 16, 4⟩, ⟨n + 20, 4⟩]
  value bytes n :=
    { deviceNum := ofBigEndian (bytes n 4), dirct := ofBigEndian (bytes (n + 4) 4)
      hour := ofBigEndian (bytes (n + 8) 4), min := ofBigEndian (bytes (n + 12) 4)
      second := ofBigEndian (bytes (n + 16) 4), count := ofBigEndian (bytes (n + 20) 4) }
  inside n place hplace := by
    simp only [List.mem_cons, List.not_mem_nil, or_false] at hplace
    rcases hplace with rfl | rfl | rfl | rfl | rfl | rfl <;> constructor <;> dsimp only <;> omega
  congr bytes bytes' n h := by
    simp only [List.forall_mem_cons] at h
    simp only [h]

/-- The speed is the last field, behind sixteen bytes without a field and a number that
is read over; the time is the one of the header. -/
def obstacleFormat (header : ObstacleHeader) : Format Obstacle where
  width := 68
  places n := [⟨n, 8⟩, ⟨n + 8, 8⟩, ⟨n + 16, 8⟩, ⟨n + 24, 4⟩, ⟨n + 28, 4⟩, ⟨n + 32, 4⟩,
    ⟨n + 36, 4⟩, ⟨n + 40, 4⟩, ⟨n + 60, 4⟩, ⟨n + 64, 4⟩]
  value bytes n :=
    { lat := ofBigEndian (bytes n 8), long := ofBigEndian (bytes (n + 8) 8)
      elev := ofBigEndian (bytes (n + 16) 8), laneID := ofBigEndian (bytes (n + 24) 4)
      obstacleID := ofBigEndian (bytes (n + 28) 4)
      description := ofBigEndian (bytes (n + 32) 4), length := ofBigEndian (bytes (n + 36) 4)
      width := ofBigEndian (bytes (n + 40) 4), speed := ofBigEndian (bytes (n + 64) 4)
      hour := header.hour, minute := header.min, second := header.second }
  inside n place hplace := by
    simp only [List.mem_cons, List.not_mem_nil, or_false] at hplace
    rcases hplace with rfl | rfl | rfl | rfl | rfl | rfl | rfl | rfl | rfl | rfl <;>
      constructor <;> dsimp only <;> omega
  congr bytes bytes' n h := by
    simp only [List.forall_mem_cons] at h
    simp only [h]

/-! ## The read functions read these formats -/

theorem commonFieldFormat_readBy : commonFieldFormat.ReadBy readCommonField := by
  intro content
  have hreads := (reads_readUInt32 content).bind fun packetLen =>
    (reads_readUInt8 content).bind fun deviceType =>
    (reads_readChar content rsuNameMaxLen).bind fun rsuName =>
    (reads_readChar content timestampLen).bind fun timestamp =>
    (reads_readUInt8 content).bind fun serviceId =>
    Reads.pure (C2RCommonField.mk packetLen deviceType rsuName timestamp serviceId)
  exact hreads

theorem pedestrianHeaderFormat_readBy : pedestrianHeaderFormat.ReadBy readPedestrianHeader := by
  intro content
  have hreads := (reads_readUInt32 content).bind fun deviceNum =>
    (reads_readUInt32 content).bind fun cameraNo =>
    (reads_readUInt32 content).bind fun hour =>
    (reads_readUInt32 content).bind fun min =>
    (reads_readFloat content).bind fun second =>
    (reads_readUInt32 content).bind fun count =>
    Reads.pure (PedestrianHeader.mk deviceNum cameraNo hour min second count)
  exact hreads

theorem pedestrianFormat_readBy : pedestrianFormat.ReadBy readPedestrian := by
  intro content
  have hreads := (reads_readUInt8 content).bind fun personId =>
    (reads_readUInt16 content).bind fun cx =>
    (reads_readUInt16 content).bind fun cy =>
    (reads_readUInt8 content).bind fun direction =>
    Reads.pure (Pedestrian.mk personId 0 cx cy direction)
  exact hreads

theorem obstacleHeaderFormat_readBy : obstacleHeaderFormat.ReadBy readObstacleHeader := by
  intro content
  have hreads := (reads_readUInt32 content).bind fun deviceNum =>
    (reads_readUInt32 content).bind fun dirct =>
    (reads_readUInt32 content).bind fun hour =>
    (reads_readUInt32 content).bind fun min =>
    (reads_readFloat content).bind fun second =>
    (reads_readUInt32 content).bind fun count =>
    Reads.pure (ObstacleHeader.mk deviceNum dirct hour min second count)
  exact hreads

theorem obstacleFormat_readBy (header : ObstacleHeader) :
    (obstacleFormat header).ReadBy (readObstacle header) := by
  intro content
  have hreads := (reads_readDouble content).bind fun lat =>
    (reads_readDouble content).bind fun long =>
    (reads_readDouble content).bind fun elev =>
    (reads_readUInt32 content).bind fun laneID =>
    (reads_readUInt32 content).bind fun obstacleID =>
    (reads_readUInt32 content).bind fun description =>
    (reads_readFloat content).bind fun length =>
    (reads_readFloat content).bind fun width =>
    (reads_skipBytes content 16).bind fun _ =>
    (reads_readUInt32 content).bind fun _ =>
    (reads_readUInt32 content).bind fun speed =>
    Reads.pure (Obstacle.mk laneID obstacleID lat long elev width length description speed
      header.hour header.min header.second)
  exact hreads

end AdaptiveSignal.Network
