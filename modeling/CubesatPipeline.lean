import CubesatPipeline.Bounds
import CubesatPipeline.HeaderFlip
import CubesatPipeline.StoredPipeline
import CubesatPipeline.Reassembly
import CubesatPipeline.Schedule
import CubesatPipeline.KernelList
import CubesatPipeline.Scheduler
import CubesatPipeline.QueueSystem
