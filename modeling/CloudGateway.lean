import CloudGateway.Proof.AccessToken
import CloudGateway.Proof.Accounting
import CloudGateway.Proof.ActiveIds
import CloudGateway.Proof.AuthRequests
import CloudGateway.Proof.CallShutdown
import CloudGateway.Proof.CommandPath
import CloudGateway.Proof.CommandTopics
import CloudGateway.Proof.CredentialsFile
import CloudGateway.Proof.CurrentToken
import CloudGateway.Proof.Delivery
import CloudGateway.Proof.DotenvBlanks
import CloudGateway.Proof.Drain
import CloudGateway.Proof.Exit
import CloudGateway.Proof.Handover
import CloudGateway.Proof.Linearization
import CloudGateway.Proof.Location
import CloudGateway.Proof.MqttPort
import CloudGateway.Proof.PushOrder
import CloudGateway.Proof.Recovery
import CloudGateway.Proof.Registration
import CloudGateway.Proof.ReportOnce
import CloudGateway.Proof.RequestBytes
import CloudGateway.Proof.Resolution
import CloudGateway.Proof.Restarts
import CloudGateway.Proof.RetryBudget
import CloudGateway.Proof.RoundTrip
import CloudGateway.Proof.SameHost
import CloudGateway.Proof.Server
import CloudGateway.Proof.Settings
import CloudGateway.Proof.SetupTruth
import CloudGateway.Proof.SubscribeOnce
import CloudGateway.Proof.WriteDiscipline
import CloudGateway.Proof.WrittenIds
